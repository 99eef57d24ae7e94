import QuorumPool.Proofs.Effect

namespace QuorumPool

/-- The address that is reported when a shard is turned away from a full suspect queue. -/
def Entry.turnedAway? : Entry → Option String
  | .event (.suspectQueueFull address) => some address
  | .event _ | .call _ => none

/-- The outcome of a get that goes on where it waits at shard `i`. -/
def Borrowing.outcome? (i : Nat) (b : Borrowing) (reply : Reply) : Option (Nat × Bool) :=
  match b, reply with
  | dialing, .ok _ => some (i, false)
  | dialing, .error _ => some (i, true)
  | discarding _, _ | validating _, _ => none

namespace Pool

/-- The pool when the outcome, if there is one, is recorded. -/
def fed (p : Pool) : Option (Nat × Bool) → Pool
  | some (i, failed) => p.recordOutcome i failed
  | none => p

/-- One elementary change. None takes a connection back, says how a shard fares or turns one away from
the suspect queue. -/
inductive Chore : Pool → Pool → Prop
  | note {p e} (he : (Entry.event e).turnedAway? = none) : Chore p (p.note e)
  | rotate {p} : Chore p p.rotate
  | count {p i t} : Chore p (p.count i t)
  | occupySlot {p i} : Chore p (p.modifyShard i Shard.occupySlot)
  | releaseSlot {p i} : Chore p (p.modifyShard i Shard.releaseSlot)
  /-- The head of an idle queue is taken. -/
  | dropIdle {p i} : Chore p (p.dropIdle i)
  /-- A connection is marked as lent. -/
  | mark {p c} : Chore p (p.modifyConn c fun conn => { conn with borrowed := true })
  /-- A connection is dialed. -/
  | adopt {p conn} : Chore p { p with conns := p.conns ++ [conn] }
  /-- A shard's flag changes, and the number of shards in service with it. -/
  | flag {p i numAvailable available} :
      Chore p ({ p with numAvailable }.modifyShard i fun s => { s with available })
  | shut {p i} : Chore p (p.modifyShard i fun s => { s with closed := true })
  /-- A shutdown closes the pool and stops its health checker. -/
  | stop {p} : Chore p { p with closed := true, stopping := true }

/-- Elementary changes one after the other. -/
def Chores (p q : Pool) : Prop := Relation.ReflTransGen Chore p q

variable {p q r : Pool} {i : Nat}

namespace Chores

theorem refl (p : Pool) : p.Chores p := Relation.ReflTransGen.refl

theorem trans (hpq : p.Chores q) (hqr : q.Chores r) : p.Chores r :=
  Relation.ReflTransGen.trans hpq hqr

/-- One more change at the end. -/
theorem tail (hpq : p.Chores q) (hqr : q.Chore r) : p.Chores r :=
  Relation.ReflTransGen.tail hpq hqr

theorem single (hchore : p.Chore q) : p.Chores q := (refl p).tail hchore

/-- What holds of elementary changes, one after the other, holds of any number of them. -/
theorem keeps {R : Pool → Pool → Prop} (hrefl : ∀ p, R p p)
    (htrans : ∀ p q r, R p q → R q r → R p r) (hchore : ∀ p q, Chore p q → R p q)
    (hchores : p.Chores q) : R p q := by
  induction hchores with
  | refl => exact hrefl p
  | tail _ hlast ih => exact htrans _ _ _ ih (hchore _ _ hlast)

theorem noteIdleClose (p : Pool) (i : Nat) (reply : Reply) :
    p.Chores (p.noteIdleClose i reply) := by
  cases reply with
  | ok _ => exact refl p
  | error e => exact single (.note rfl)

section Get

theorem lend (p : Pool) (i : Nat) (c : ConnId) : p.Chores (p.lend i c) :=
  (single .mark).tail .occupySlot

theorem serve (p : Pool) (i : Nat) : p.Chores (p.serve i).1 := by
  unfold Pool.serve
  dsimp only
  split
  · have hdrop : p.Chores (p.dropIdle i) := single .dropIdle
    split
    · exact ((hdrop.tail (.note rfl)).tail .count).tail .count
    split
    · exact hdrop
    · exact hdrop.trans (lend _ i _)
  · split
    · exact (single .occupySlot).tail .count
    · exact refl p

theorem borrow (p : Pool) (i : Nat) : p.Chores (p.borrow i).1 := by
  unfold Pool.borrow
  split
  · exact refl p
  · exact (single .count).trans (serve _ i)

/-- A get that waits for a dial has its outcome recorded first. -/
theorem resumeBorrow (p : Pool) (i : Nat) (b : Borrowing) (reply : Reply) :
    (p.fed (b.outcome? i reply)).Chores (p.resumeBorrow i b reply).1 := by
  cases b with
  | discarding c => exact (noteIdleClose p i reply).trans (serve _ i)
  | validating c =>
    cases reply with
    | ok _ => exact lend p i c
    | error e => exact (single (.note rfl)).tail .count
  | dialing =>
    cases reply with
    | ok _ => exact (single .adopt).tail (.note rfl)
    | error e => exact ((single .count).tail .releaseSlot).tail (.note rfl)

theorem passOver (p : Pool) (i attempt : Nat) (e : PoolError) :
    p.Chores (p.passOver i attempt e) :=
  (single .rotate).tail (.note rfl)

theorem visit (p : Pool) (start attempt left : Nat) :
    p.Chores (p.visit start attempt left).1 := by
  induction left generalizing p attempt with
  | zero => exact refl p
  | succ left ih =>
    unfold Pool.visit
    dsimp only
    split
    · have hborrow := borrow p (p.visited start attempt)
      split <;> rename_i heq <;> rw [heq] at hborrow
      · exact hborrow
      · exact hborrow
      · exact (hborrow.trans (passOver ..)).trans (ih ..)
    · exact (single .rotate).trans (ih ..)

theorem get (p : Pool) : p.Chores p.get.1 := by
  unfold Pool.get
  split
  · exact refl p
  · exact (single .rotate).trans (visit ..)

theorem resumeGet (p : Pool) (g : Getting) (reply : Reply) :
    (p.fed (g.borrowing.outcome? (p.visited g.start g.attempt) reply)).Chores
      (p.resumeGet g reply).1 := by
  have hborrow := resumeBorrow p (p.visited g.start g.attempt) g.borrowing reply
  unfold Pool.resumeGet
  dsimp only
  split <;> rename_i heq <;> rw [heq] at hborrow
  · exact hborrow
  · exact hborrow
  · exact (hborrow.trans (passOver ..)).trans (visit ..)

end Get

section Verdict

theorem drain (p : Pool) (i drained : Nat) : p.Chores (p.drain i drained).1 := by
  unfold Pool.drain
  dsimp only
  split
  · exact (single .dropIdle).tail .count
  · exact single (.note rfl)

theorem promote (p : Pool) (i : Nat) : p.Chores (p.promote i).1 := by
  unfold Pool.promote
  split
  · exact refl p
  · exact (single .flag).tail (.note rfl)

theorem demote (p : Pool) (i : Nat) : p.Chores (p.demote i).1 := by
  unfold Pool.demote
  dsimp only
  split
  · exact refl p
  split
  · exact single (.note rfl)
  · exact ((single .flag).tail (.note rfl)).trans (drain _ i 0)

theorem resumeVerdict (p : Pool) (v : Verdict) (reply : Reply) :
    p.Chores (p.resumeVerdict v reply).1 := by
  cases v with
  | deciding i healthy =>
    cases healthy with
    | true => exact promote p i
    | false => exact demote p i
  | draining i c drained => exact (noteIdleClose p i reply).trans (drain _ i _)

theorem resumeCheck (p : Pool) (c : Check) (reply : Reply) :
    p.Chores (p.resumeCheck c reply).1 := by
  unfold Pool.resumeCheck
  split
  · exact refl p
  · exact single (.note rfl)
  · exact refl p
  · exact refl p
  · dsimp only
    split <;> split
    · exact refl p
    · exact single (.note rfl)
    · exact single (.note rfl)
    · exact (single (.note rfl)).tail (.note rfl)

theorem resumeErrand (p : Pool) (e : Errand) (reply : Reply) :
    p.Chores (p.resumeErrand e reply).1 := by
  rw [fst_resumeErrand]
  cases e.inspection with
  | checking i c =>
    rw [fst_resumeInspection_checking]
    exact resumeCheck p c reply
  | judging v =>
    rw [fst_resumeInspection_judging]
    exact resumeVerdict p v reply

end Verdict

section Shutdown

theorem closeLast (p : Pool) (left : Nat) : p.Chores (p.closeLast left).1 := by
  induction left generalizing p with
  | zero => exact single (.note rfl)
  | succ left ih =>
    unfold Pool.closeLast
    dsimp only
    split
    · exact ((single .shut).tail .dropIdle).tail .count
    · exact ((single .shut).tail (.note rfl)).trans (ih _)

theorem closeOn (p : Pool) (i drained : Nat) : p.Chores (p.closeOn i drained).1 := by
  unfold Pool.closeOn
  split
  · exact (single .dropIdle).tail .count
  · exact (single (.note rfl)).trans (closeLast _ _)

theorem enterShutdown (p : Pool) : p.Chores p.enterShutdown.1 := by
  unfold Pool.enterShutdown
  split
  · exact single (.note rfl)
  · exact single .stop

theorem shutdown (p : Pool) : p.Chores p.shutdown.1 := by
  unfold Pool.shutdown
  split
  · exact refl p
  · exact enterShutdown p

theorem resumeShutdown (p : Pool) (s : Closing) (reply : Reply) :
    p.Chores (p.resumeShutdown s reply).1 := by
  cases s with
  | queued =>
    unfold Pool.resumeShutdown
    dsimp only
    split
    · exact refl p
    · exact enterShutdown p
  | joining =>
    unfold Pool.resumeShutdown
    dsimp only
    split
    · exact closeLast p _
    · exact refl p
  | draining i c drained => exact (noteIdleClose p i reply).trans (closeOn _ i _)

end Shutdown

section Tasks

/-- Only a return takes a connection back. -/
theorem begin {request : Request} (hput : ∀ c broken, request ≠ .put c broken) :
    p.Chores (p.begin request).1 := by
  cases request with
  | get => exact get p
  | put c broken => exact absurd rfl (hput c broken)
  | strayPut | mark | check => exact refl p
  | shutdown => exact shutdown p

/-- A task that is no get waits for nothing that says how a shard fares. -/
theorem advance {t : Task} (hget : ∀ g, t ≠ .get g) (reply : Reply) :
    p.Chores (p.advance t reply).1 := by
  cases t with
  | get g => exact absurd rfl (hget g)
  | put c => exact refl p
  | strayPut =>
    cases reply with
    | ok _ => exact refl p
    | error e => exact single (.note rfl)
  | verdict v => exact resumeVerdict p v reply
  | check c => exact resumeCheck p c reply
  | shutdown s => exact resumeShutdown p s reply

end Tasks

end Chores

end Pool

end QuorumPool
