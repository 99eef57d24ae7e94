import QuorumPool.Proofs.Completion
import QuorumPool.Proofs.Suspicion
import QuorumPool.Proofs.Tour

namespace QuorumPool

/-- Whether the task is a get or a return. -/
def Task.isLoan : Task → Bool
  | get _ | put _ => true
  | strayPut | verdict _ | check _ | shutdown _ => false

/-- Whether the request is for a get or for a return. -/
def Request.isLoan : Request → Bool
  | get | put .. => true
  | strayPut | mark .. | check _ | shutdown => false

namespace Pool

/-- What two pools do with nobody else around, on factories in the same state, when it comes to the
same. -/
structure Matching {σ α : Type} (v w : σ × Pool × α) : Prop where
  state : w.1 = v.1
  pool : v.2.1.Echoes w.2.1
  result : w.2.2 = v.2.2

variable {p q : Pool} {σ : Type} {id : TaskId} {t : Task} {i : Nat}

theorem Matching.exists_eq {α : Type} {v w : σ × Pool × α} (hvw : Matching v w) :
    ∃ s r r' a, v = (s, r, a) ∧ w = (s, r', a) ∧ r.Echoes r' := by
  obtain ⟨s, r, a⟩ := v
  obtain ⟨s', r', a'⟩ := w
  obtain ⟨hstate, hpool, hresult⟩ := hvw
  exact ⟨s, r, r', a, rfl, Prod.ext hstate (Prod.ext rfl hresult), hpool⟩

namespace Echoes

section Get

theorem noteIdleClose (hpq : p.Echoes q) (i : Nat) (reply : Reply) :
    (p.noteIdleClose i reply).Echoes (q.noteIdleClose i reply) := by
  obtain ⟨suspects, journal, rfl⟩ := hpq
  cases reply <;> exact ⟨_, _, rfl⟩

theorem adopt (hpq : p.Echoes q) (i : Nat) : (p.adopt i).Echoes (q.adopt i) := by
  obtain ⟨suspects, journal, hrecord⟩ := hpq.recordOutcome i false
  unfold Pool.adopt
  rw [hrecord]
  exact ⟨_, _, rfl⟩

theorem resumeBorrow (hpq : p.Echoes q) (i : Nat) (b : Borrowing) (reply : Reply) :
    Echoing (p.resumeBorrow i b reply) (q.resumeBorrow i b reply) := by
  cases b with
  | discarding c => exact (hpq.noteIdleClose i reply).serve i
  | validating c =>
    obtain ⟨suspects, journal, rfl⟩ := hpq
    cases reply <;> exact ⟨⟨_, _, rfl⟩, rfl⟩
  | dialing =>
    cases reply with
    | ok _ =>
      refine ⟨hpq.adopt i, ?_⟩
      obtain ⟨suspects, journal, rfl⟩ := hpq
      rfl
    | error e => exact ⟨hpq.failDial i e, rfl⟩

theorem get (hpq : p.Echoes q) : Echoing p.get q.get := by
  have hrotate : p.rotate.Echoes q.rotate := by
    obtain ⟨suspects, journal, rfl⟩ := hpq
    exact ⟨_, _, rfl⟩
  have hclosed : q.closed = p.closed := by
    obtain ⟨suspects, journal, rfl⟩ := hpq
    rfl
  have hvisit : q.rotate.visit q.rotation 0 q.maxRetry =
      q.rotate.visit p.rotation 0 p.maxRetry := by
    obtain ⟨suspects, journal, rfl⟩ := hpq
    rfl
  unfold Pool.get
  rw [hclosed, hvisit]
  split
  · exact ⟨hpq, rfl⟩
  · exact hrotate.visit ..

end Get

end Echoes

theorem Echoing.goOn {v w : Pool × Progress Borrowing (Except PoolError ConnId)}
    (hvw : Echoing v w) (i start attempt : Nat) :
    Echoing (goOn i start attempt v) (goOn i start attempt w) := by
  obtain ⟨r, b, suspects, journal, rfl, rfl⟩ := hvw.exists_eq
  have hr : r.Echoes { r with suspects, journal } := ⟨suspects, journal, rfl⟩
  rcases b with b | e | c
  · exact ⟨hr, rfl⟩
  · exact (hr.passOver ..).visit ..
  · exact ⟨hr, rfl⟩

namespace Echoes

theorem shard (hpq : p.Echoes q) (i : Nat) : q.shard i = p.shard i := by
  obtain ⟨suspects, journal, rfl⟩ := hpq
  rfl

theorem conns (hpq : p.Echoes q) : q.conns = p.conns := by
  obtain ⟨suspects, journal, rfl⟩ := hpq
  rfl

theorem task? (hpq : p.Echoes q) (id : TaskId) : q.task? id = p.task? id := by
  obtain ⟨suspects, journal, rfl⟩ := hpq
  rfl

/-- A get or a return waits for the factory, and for the same. -/
theorem exists_call (hpq : p.Echoes q) (ht : p.task? id = some t) (hloan : t.isLoan = true) :
    ∃ call, p.call? id = some call ∧ q.call? id = some call := by
  obtain ⟨suspects, journal, rfl⟩ := hpq
  have ht' : Pool.task? { p with suspects, journal } id = some t := ht
  simp only [Pool.call?, ht, ht', Option.bind_some]
  cases t with
  | get g =>
    obtain ⟨start, attempt, b⟩ := g
    cases b <;> exact ⟨_, rfl, rfl⟩
  | put c => exact ⟨_, rfl, rfl⟩
  | strayPut | verdict | check | shutdown => cases hloan

theorem advance (hpq : p.Echoes q) (hloan : t.isLoan = true) (reply : Reply) :
    Echoing (p.advance t reply) (q.advance t reply) := by
  cases t with
  | get g =>
    have hvisited : q.visited g.start g.attempt = p.visited g.start g.attempt := by
      obtain ⟨suspects, journal, rfl⟩ := hpq
      rfl
    have hget : Echoing (p.resumeGet g reply) (q.resumeGet g reply) := by
      rw [resumeGet_eq, resumeGet_eq, hvisited]
      exact (hpq.resumeBorrow _ g.borrowing reply).goOn ..
    exact hget.map Task.get answerGet
  | put c => exact ⟨hpq, rfl⟩
  | strayPut | verdict | check | shutdown => cases hloan

end Echoes

/-- A get or a return that goes on remains one. -/
theorem isLoan_of_advance {u : Task} {reply : Reply} (hloan : t.isLoan = true)
    (hadvance : (p.advance t reply).2 = .waits u) : u.isLoan = true := by
  cases t with
  | get g =>
    obtain ⟨g', -, rfl⟩ := Progress.map_eq_waits.mp hadvance
    rfl
  | put c => cases hadvance
  | strayPut | verdict | check | shutdown => cases hloan

/-- A task that is not answered waits. -/
theorem exists_waits_of_resume {reply : Reply} (ht : p.task? id = some t)
    (hresume : (p.resume id reply).2 = none) : ∃ u, (p.advance t reply).2 = .waits u := by
  simp only [resume, ht] at hresume
  rcases hadvance : p.advance t reply with ⟨q, u | a⟩ <;> rw [hadvance] at hresume
  · exact ⟨u, rfl⟩
  · cases hresume

namespace Echoes

theorem carry (hpq : p.Echoes q) (hwf : p.WellFormed) (ht : p.task? id = some t)
    (hloan : t.isLoan = true) (serve : Service σ) (fuel : Nat) (s : σ) :
    Matching (Pool.carry serve id fuel s p) (Pool.carry serve id fuel s q) := by
  induction fuel generalizing p q s t with
  | zero => exact ⟨rfl, hpq, rfl⟩
  | succ fuel ih =>
    obtain ⟨call, hp, hq⟩ := hpq.exists_call ht hloan
    have hadvance := hpq.advance hloan (serve s call).2
    obtain ⟨hpool, hanswer⟩ := Echoing.resume ht ((hpq.task? id).trans ht) hadvance
    rw [carry_of_call serve s fuel hp, carry_of_call serve s fuel hq, hanswer]
    cases hresume : (p.resume id (serve s call).2).2 with
    | some a => exact ⟨rfl, hpool, rfl⟩
    | none =>
      obtain ⟨u, hu⟩ := exists_waits_of_resume ht hresume
      exact ih hpool (hwf.resume id _) (task?_resume hwf ht hu) (isLoan_of_advance hloan hu) _

theorem begin (hpq : p.Echoes q) {request : Request} (hloan : request.isLoan = true) :
    Echoing (p.begin request) (q.begin request) := by
  cases request with
  | get => exact hpq.get.map Task.get answerGet
  | put c broken => exact (hpq.put c broken).map (fun _ => Task.put c) answerPut
  | strayPut | mark | check | shutdown => cases hloan

end Echoes

private theorem isLoan_of_begin {request : Request} (hloan : request.isLoan = true)
    (hbegin : (p.begin request).2 = .waits t) : t.isLoan = true := by
  cases request with
  | get =>
    obtain ⟨g, -, rfl⟩ := Progress.map_eq_waits.mp hbegin
    rfl
  | put c broken =>
    obtain ⟨_, -, rfl⟩ := Progress.map_eq_waits.mp hbegin
    rfl
  | strayPut | mark | check | shutdown => cases hloan

namespace Echoes

theorem perform (hpq : p.Echoes q) (hwf : p.WellFormed) (request : Request)
    (hloan : request.isLoan = true) (serve : Service σ) (s : σ) :
    Matching (Pool.perform serve s p request) (Pool.perform serve s q request) := by
  have hstart := Echoing.start request (hpq.begin hloan)
  have htask (id : TaskId) : (p.start request).2 = .waits id → _ := exists_task_of_start hwf
  have hwf' : (p.start request).1.WellFormed := hwf.act (.start request)
  obtain ⟨r, w, suspects, journal, hp, hq⟩ := hstart.exists_eq
  rw [hp] at htask hwf'
  simp only [Pool.perform, hp, hq]
  have hr : r.Echoes { r with suspects, journal } := ⟨suspects, journal, rfl⟩
  cases w with
  | waits id =>
    obtain ⟨t, hbegin, ht⟩ := htask id rfl
    exact hr.carry hwf' ht (isLoan_of_begin hloan hbegin) serve r.effort s
  | done a => exact ⟨rfl, hr, rfl⟩

/-- A get with nobody else around comes to the same. -/
theorem getAlone (hpq : p.Echoes q) (hwf : p.WellFormed) (serve : Service σ) (s : σ) :
    Matching (p.getAlone serve s) (q.getAlone serve s) := by
  obtain ⟨s', r, r', a, hp, hq, hr⟩ := (hpq.perform hwf .get rfl serve s).exists_eq
  have hbudget : (Except.error (.retriesExhausted r'.maxRetry) : Except PoolError ConnId) =
      .error (.retriesExhausted r.maxRetry) := by
    obtain ⟨suspects, journal, rfl⟩ := hr
    rfl
  simp only [Pool.getAlone, hp, hq]
  rcases a with - | a
  · exact ⟨rfl, hr, hbudget⟩
  cases a with
  | lent | refused => exact ⟨rfl, hr, rfl⟩
  | returned | changed | healthy | shutDown => exact ⟨rfl, hr, hbudget⟩

/-- So does a return. -/
theorem putAlone (hpq : p.Echoes q) (hwf : p.WellFormed) (serve : Service σ) (s : σ) (c : ConnId)
    (broken : Bool) : Matching (p.putAlone serve s c broken) (q.putAlone serve s c broken) := by
  obtain ⟨s', r, r', a, hp, hq, hr⟩ :=
    (hpq.perform hwf (.put c broken) rfl serve s).exists_eq
  simp only [Pool.putAlone, hp, hq]
  rcases a with - | a
  · exact ⟨rfl, hr, rfl⟩
  cases a <;> exact ⟨rfl, hr, rfl⟩

end Echoes

end Pool

end QuorumPool
