import Mathlib.Logic.Relation
import QuorumPool.Pool.Run
import QuorumPool.Proofs.Shards

namespace QuorumPool

/-- What an activity has in hand. -/
inductive Hand where
  | free
  /-- A slot of the shard, taken for a dial. -/
  | slot (shard : Nat)
  /-- A connection taken from the shard's idle queue. -/
  | popped (shard : Nat) (conn : ConnId)
  /-- A connection that was lent by the shard a moment ago, its slot not yet given back. -/
  | unlent (shard : Nat) (conn : ConnId)
  /-- A connection given back to the shard, with its slot. -/
  | returned (shard : Nat) (conn : ConnId)
  /-- A connection that the factory is to close. -/
  | closing (conn : ConnId)
deriving DecidableEq

namespace Hand

/-- What is left in hand when the activity waits: a connection to be closed is the factory's. -/
def parked : Hand → Hand
  | closing _ => free
  | h => h

/-- Whether an activity may wait with this in hand. An idle connection is held over a wait only to
be validated, and a returned one never. -/
def Parks (c : Config) : Hand → Prop
  | popped .. => c.testOnBorrow = true
  | unlent .. | returned .. => False
  | free | slot _ | closing _ => True

end Hand

/-- What a get that waits at shard `i` has in hand. -/
def Borrowing.hand (i : Nat) : Borrowing → Hand
  | discarding c => .closing c
  | validating c => .popped i c
  | dialing => .slot i

/-- What a get on a pool of `n` shards has in hand. -/
def Getting.hand (n : Nat) (g : Getting) : Hand := g.borrowing.hand ((g.start + g.attempt) % n)

def Verdict.hand : Verdict → Hand
  | deciding .. => .free
  | draining _ c _ => .closing c

def Inspection.hand : Inspection → Hand
  | checking .. => .free
  | judging v => v.hand

def Closing.hand : Closing → Hand
  | queued | joining => .free
  | draining _ c _ => .closing c

/-- What a task in flight in a pool of `n` shards had in hand when it came to wait. -/
def Task.hand (n : Nat) : Task → Hand
  | get g => g.hand n
  | put c => .closing c
  | strayPut | check _ => .free
  | verdict v => v.hand
  | shutdown s => s.hand

/-- What is in hand after a step: nothing once there is a result. -/
def Progress.hand {σ α : Type} (f : σ → Hand) : Progress σ α → Hand
  | waits s => f s
  | done _ => .free

theorem Progress.hand_map {σ α τ β : Type} {f : σ → Hand} {f' : τ → Hand} {g : σ → τ}
    {a : α → β} (hf : ∀ s, f' (g s) = f s) (w : Progress σ α) :
    (w.map g a).hand f' = w.hand f := by
  cases w with
  | waits s => exact hf s
  | done _ => rfl

theorem Progress.map_eq_waits {σ α τ β : Type} {g : σ → τ} {a : α → β} {w : Progress σ α} {t : τ} :
    w.map g a = .waits t ↔ ∃ s, w = .waits s ∧ g s = t := by
  cases w <;> simp [Progress.map]

theorem Progress.map_eq_done {σ α τ β : Type} {g : σ → τ} {a : α → β} {w : Progress σ α} {b : β} :
    w.map g a = .done b ↔ ∃ x, w = .done x ∧ a x = b := by
  cases w <;> simp [Progress.map]

namespace Pool

/-- How often the factory was asked to close the connection. -/
def closeCalls (p : Pool) (c : ConnId) : Nat := p.journal.count (.call (.close (.own c)))

/-- What the tasks in flight have in hand while they wait. -/
def held (p : Pool) : List Hand := p.tasks.map fun x => (x.2.hand p.shards.length).parked

/-- Two pools that agree on the shards, on the connections and on the calls that closed them. -/
structure Alike (p q : Pool) : Prop where
  config : q.config = p.config
  shards : q.shards = p.shards
  conns : q.conns = p.conns
  numAvailable : q.numAvailable = p.numAvailable
  now : q.now = p.now
  closeCalls : ∀ c, q.closeCalls c = p.closeCalls c

/-- A change that leaves shards and connections alone, and the tasks in flight and the health
checker as well. -/
structure Quiet (p q : Pool) : Prop extends Alike p q where
  tasks : q.tasks = p.tasks
  nextTask : q.nextTask = p.nextTask
  checker : q.checker = p.checker
  suspects : ∀ i ∈ q.suspects, i ∈ p.suspects ∨ i < p.shards.length

/-- A change of a shard's failure count, or of counters that say nothing of what it holds. -/
structure Bookkeeping (f : Shard → Shard) : Prop where
  address : ∀ s, (f s).address = s.address
  idle : ∀ s, (f s).idle = s.idle
  active : ∀ s, (f s).active = s.active
  available : ∀ s, (f s).available = s.available
  closed : ∀ s, (f s).closed = s.closed
  dials : ∀ s, (f s).tally.dials = s.tally.dials
  dialErrors : ∀ s, (f s).tally.dialErrors = s.tally.dialErrors
  closes : ∀ s, (f s).tally.closes = s.tally.closes

/-- One small change of a pool, and of what the activity behind it has in hand. -/
inductive Move : Pool × Hand → Pool × Hand → Prop
  | quiet {p q h} : Quiet p q → Move (p, h) (q, h)
  | score {p h i f} : Bookkeeping f → Move (p, h) (p.modifyShard i f, h)
  /-- The head of an idle queue is taken. -/
  | pop {p i c rest} : (p.shard i).idle = c :: rest → Move (p, .free) (p.dropIdle i, .popped i c)
  | lend {p i c} : i < p.shards.length → Move (p, .popped i c) (p.lend i c, .free)
  /-- An idle connection is given up. -/
  | discard {p i c} : Move (p, .popped i c) (p.count i Tally.countClose, .closing c)
  /-- A returned connection is given up. -/
  | refuse {p i c} : Move (p, .returned i c) (p.count i Tally.countClose, .closing c)
  /-- A slot is taken for a dial, when no connection is idle and the limit leaves room. -/
  | dial {p i} : i < p.shards.length → (p.shard i).idle = [] →
      (p.shard i).hasRoom p.config.maxActive →
      Move (p, .free) ((p.modifyShard i Shard.occupySlot).count i Tally.countDial, .slot i)
  /-- A dialed connection is lent under the slot taken for it. -/
  | adopt {p i} : i < p.shards.length →
      Move (p, .slot i) ({ p with conns := p.conns ++ [⟨i, true, p.now⟩] }, .free)
  | failDial {p i} : i < p.shards.length →
      Move (p, .slot i) ((p.count i Tally.countDialError).modifyShard i Shard.releaseSlot, .free)
  /-- A lent connection comes back. -/
  | unlend {p c conn} : p.conns[c]? = some conn → conn.borrowed = true →
      Move (p, .free)
        (p.modifyConn c fun conn => { conn with borrowed := false, lastUsed := p.now },
          .unlent conn.shard c)
  | release {p i c} : i < p.shards.length →
      Move (p, .unlent i c) (p.modifyShard i Shard.releaseSlot, .returned i c)
  /-- A returned connection joins the idle queue of a shard in service that has room for it. -/
  | enqueue {p i c} : i < p.shards.length → (p.shard i).acceptsIdle = true →
      (p.shard i).idle.length < p.config.maxIdle →
      Move (p, .returned i c) (p.modifyShard i fun s => { s with idle := s.idle ++ [c] }, .free)
  | promote {p i} : i < p.shards.length → (p.shard i).available = false →
      Move (p, .free)
        ({ p with numAvailable := p.numAvailable + 1 }.modifyShard i
          fun s => { s with available := true }, .free)
  /-- A shard is taken out of service, when the quorum permits it. -/
  | demote {p i} : i < p.shards.length → (p.shard i).available = true →
      p.config.quorum.permitsDemotion p.numAvailable p.shards.length = true →
      Move (p, .free)
        ({ p with numAvailable := p.numAvailable - 1 }.modifyShard i
          fun s => { s with available := false }, .free)
  | shut {p i} : Move (p, .free) (p.modifyShard i fun s => { s with closed := true }, .free)

/-- Small changes one after the other, and what is in hand before and after them. -/
def Moves (p : Pool) (h : Hand) (q : Pool) (k : Hand) : Prop :=
  Relation.ReflTransGen Move (p, h) (q, k)

namespace Moves

variable {p q r : Pool} {h k l : Hand}

theorem refl : Moves p h p h := Relation.ReflTransGen.refl

theorem single (hmove : Move (p, h) (q, k)) : Moves p h q k := Relation.ReflTransGen.single hmove

theorem trans (hpq : Moves p h q k) (hqr : Moves q k r l) : Moves p h r l :=
  Relation.ReflTransGen.trans hpq hqr

/-- One more change at the end. -/
theorem tail (hpq : Moves p h q k) (hmove : Move (q, k) (r, l)) : Moves p h r l :=
  Relation.ReflTransGen.tail hpq hmove

/-- What every small change keeps, any number of them keeps. -/
theorem keeps {I : Pool → Hand → Prop}
    (hmove : ∀ p h q k, Move (p, h) (q, k) → I p h → I q k)
    (hmoves : Moves p h q k) (hp : I p h) : I q k := by
  have key : ∀ y, Relation.ReflTransGen Move (p, h) y → I y.1 y.2 := by
    intro y hy
    induction hy with
    | refl => exact hp
    | tail _ hstep ih => exact hmove _ _ _ _ hstep ih
  exact key _ hmoves

end Moves

end Pool

end QuorumPool
