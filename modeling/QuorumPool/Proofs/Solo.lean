import QuorumPool.Pool.Run

namespace QuorumPool

/-- A call to the factory, with the time at which the reply came and what it said. -/
structure Exchange where
  call : Call
  time : Duration
  reply : Reply

/-- How a factory behaves: how long it takes over a call that follows the given exchanges, and what
it replies. -/
abbrev Factory := List Exchange → Call → Duration × Reply

/-- Whether the factory behaves as in the exchanges, when the first of their calls is made at the
time `now` and after the exchanges `past`. -/
def Factory.Makes (f : Factory) (past : List Exchange) (now : Duration) : List Exchange → Prop
  | [] => True
  | x :: xs =>
    x.time = now + (f past x.call).1 ∧ x.reply = (f past x.call).2 ∧
      f.Makes (past ++ [x]) x.time xs

/-- Two exchanges that differ at most in the reply to a close. -/
structure Exchange.AlikeButClose (x y : Exchange) : Prop where
  call : y.call = x.call
  time : y.time = x.time
  reply : y.reply = x.reply ∨ ∃ t, x.call = .close t

/-- An activity of a pool, which waits in states from `σ` and has results in `α`. -/
structure Activity (σ α : Type) where
  /-- What it waits for the factory to do. -/
  call : Pool → σ → Call
  resume : Pool → σ → Reply → Pool × Progress σ α
  /-- Only while it waits does time pass. -/
  now_resume : ∀ p s reply, (resume p s reply).1.now = p.now

namespace Activity

variable {σ α : Type} {act : Activity σ α} {w : Pool × Progress σ α} {p q : Pool} {a b : α}
  {xs : List Exchange}

/-- From `w` on, the activity goes through the exchanges with nobody else around, and then it has
its result. -/
inductive Ends (act : Activity σ α) : Pool × Progress σ α → List Exchange → Pool → α → Prop
  | done (p : Pool) (a : α) : Ends act (p, .done a) [] p a
  | waits {p s x xs q a} (hcall : x.call = act.call p s) (htime : p.now ≤ x.time)
      (hrest : Ends act (act.resume (p.setTime x.time) s x.reply) xs q a) :
      Ends act (p, .waits s) (x :: xs) q a

/-- From `w` on, the activity comes to its result, whatever the factory replies to each call and
however long it takes. -/
inductive Halts (act : Activity σ α) : Pool × Progress σ α → Prop
  | done (p : Pool) (a : α) : Halts act (p, .done a)
  | waits {p s} (hnext : ∀ now, p.now ≤ now → ∀ reply,
      Halts act (act.resume (p.setTime now) s reply)) : Halts act (p, .waits s)

theorem ends_done_iff : act.Ends (p, .done a) xs q b ↔ xs = [] ∧ q = p ∧ b = a := by
  constructor
  · intro hends
    cases hends
    exact ⟨rfl, rfl, rfl⟩
  · rintro ⟨rfl, rfl, rfl⟩
    exact .done q b

theorem ends_waits_iff {s : σ} : act.Ends (p, .waits s) xs q a ↔
    ∃ x rest, xs = x :: rest ∧ x.call = act.call p s ∧ p.now ≤ x.time ∧
      act.Ends (act.resume (p.setTime x.time) s x.reply) rest q a := by
  constructor
  · intro hends
    cases hends with
    | waits hcall htime hrest => exact ⟨_, _, rfl, hcall, htime, hrest⟩
  · rintro ⟨x, rest, rfl, hcall, htime, hrest⟩
    exact .waits hcall htime hrest

theorem Ends.of_done (hw : w.2 = .done a) : act.Ends w [] w.1 a := by
  obtain ⟨p, b⟩ := w
  cases hw
  exact .done p a

theorem Ends.of_waits {s : σ} {x : Exchange} (hw : w.2 = .waits s)
    (hcall : x.call = act.call w.1 s) (htime : w.1.now ≤ x.time)
    (hrest : act.Ends (act.resume (w.1.setTime x.time) s x.reply) xs q a) :
    act.Ends w (x :: xs) q a := by
  obtain ⟨p, b⟩ := w
  cases hw
  exact .waits hcall htime hrest

/-- On every factory, an activity that halts has an end. -/
theorem Halts.exists_ends (hhalts : act.Halts w) (f : Factory) (past : List Exchange) :
    ∃ xs q a, act.Ends w xs q a ∧ f.Makes past w.1.now xs := by
  induction hhalts generalizing past with
  | done p a => exact ⟨[], p, a, .done p a, trivial⟩
  | @waits p s _ ih =>
    let x : Exchange :=
      ⟨act.call p s, p.now + (f past (act.call p s)).1, (f past (act.call p s)).2⟩
    have htime : p.now ≤ x.time := Nat.le_add_right _ _
    obtain ⟨xs, q, a, hends, hmakes⟩ := ih x.time htime x.reply (past ++ [x])
    rw [act.now_resume] at hmakes
    exact ⟨x :: xs, q, a, .waits rfl htime hends, rfl, rfl, hmakes⟩

end Activity

/-- What a get at shard `i` waits for. -/
def Borrowing.call (p : Pool) (i : Nat) : Borrowing → Call
  | discarding c => .close (.own c)
  | validating c => .validate (.own c)
  | dialing => .dial i (p.shard i).address

namespace Pool

private theorem now_offerSuspect (p : Pool) (i : Nat) : (p.offerSuspect i).now = p.now := by
  unfold offerSuspect
  dsimp only
  split
  · rfl
  split <;> rfl

theorem now_recordOutcome (p : Pool) (i : Nat) (failed : Bool) :
    (p.recordOutcome i failed).now = p.now := by
  cases failed with
  | false => rfl
  | true =>
    simp only [recordOutcome, if_true]
    split
    · exact now_offerSuspect _ i
    · rfl

private theorem now_noteIdleClose (p : Pool) (i : Nat) (reply : Reply) :
    (p.noteIdleClose i reply).now = p.now := by
  cases reply <;> rfl

theorem now_serve (p : Pool) (i : Nat) : (p.serve i).1.now = p.now := by
  unfold serve
  dsimp only
  split
  · split
    · rfl
    split <;> rfl
  · split <;> rfl

theorem now_borrow (p : Pool) (i : Nat) : (p.borrow i).1.now = p.now := by
  unfold borrow
  split
  · rfl
  · exact now_serve _ i

theorem now_resumeBorrow (p : Pool) (i : Nat) (b : Borrowing) (reply : Reply) :
    (p.resumeBorrow i b reply).1.now = p.now := by
  cases b with
  | discarding c =>
    simp only [resumeBorrow, now_serve, now_noteIdleClose]
  | validating c => cases reply <;> rfl
  | dialing =>
    cases reply with
    | ok => exact now_recordOutcome p i false
    | error e => exact now_recordOutcome p i true

theorem now_visit (p : Pool) (start attempt left : Nat) :
    (p.visit start attempt left).1.now = p.now := by
  induction left generalizing p attempt with
  | zero => rfl
  | succ left ih =>
    have hborrow := now_borrow p (p.visited start attempt)
    unfold visit
    dsimp only
    split
    · split <;> rename_i heq <;> rw [heq] at hborrow
      · exact hborrow
      · exact hborrow
      · exact (ih _ _).trans hborrow
    · exact ih _ _

theorem now_resumeGet (p : Pool) (g : Getting) (reply : Reply) :
    (p.resumeGet g reply).1.now = p.now := by
  have hborrow := now_resumeBorrow p (p.visited g.start g.attempt) g.borrowing reply
  unfold resumeGet
  dsimp only
  split <;> rename_i heq <;> rw [heq] at hborrow
  · exact hborrow
  · exact hborrow
  · exact (now_visit ..).trans hborrow

/-- A get at shard `i`. -/
def borrowing (i : Nat) : Activity Borrowing (Except PoolError ConnId) where
  call p b := b.call p i
  resume p b reply := p.resumeBorrow i b reply
  now_resume p b reply := now_resumeBorrow p i b reply

/-- A get on the pool. -/
def getting : Activity Getting (Except PoolError ConnId) where
  call p g := g.borrowing.call p (p.visited g.start g.attempt)
  resume p g reply := p.resumeGet g reply
  now_resume p g reply := now_resumeGet p g reply

end Pool

end QuorumPool
