import QuorumPool.Proofs.Answers
import QuorumPool.Proofs.Closures
import QuorumPool.Proofs.Conservation

namespace QuorumPool

/-- Where the task stands in the work of a shutdown. One that waits for its turn has none. -/
def Task.closing? : Task → Option Closing
  | shutdown .queued => none
  | shutdown s => some s
  | _ => none

/-- The number of shards that a shutdown at work has come to. -/
def Closing.reached : Closing → Nat
  | queued | joining => 0
  | draining i _ _ => i + 1

/-- What is left to do after a step of a shutdown at work. -/
def Progress.closing : Progress Closing Unit → List Closing
  | waits s => [s]
  | done _ => []

/-- The shutdown that a task is at work on after its step. -/
def Progress.closers : Progress Task Answer → List Closing
  | waits t => t.closing?.toList
  | done _ => []

namespace Pool

/-- The shutdowns at work. -/
def closers (p : Pool) : List Closing := p.tasks.filterMap (·.2.closing?)

/-- The first `k` shards were closed, in their order, and their queues are empty. -/
structure ShutTo (p : Pool) (k : Nat) : Prop where
  shards : ∀ i < k, (p.shard i).closed = true ∧ (p.shard i).idle = []
  closures : p.closures = (List.range k).map fun i => (p.shard i).address

/-- A pool that is shut down. -/
structure Finished (p : Pool) : Prop where
  closed : p.closed = true
  checker : p.checker = .stopped
  shut : p.ShutTo p.shards.length

/-- How far the pool has come, with the given shutdowns at work. -/
inductive Course (p : Pool) : List Closing → Prop
  | opened : p.closed = false → p.ShutTo 0 → Course p []
  | joining : p.closed = true → p.ShutTo 0 → Course p [.joining]
  | draining {i c drained} : p.closed = true → p.checker = .stopped → i < p.shards.length →
      (p.shard i).closed = true → p.ShutTo i → Course p [.draining i c drained]
  | finished : p.Finished → Course p []

variable {p q : Pool} {i k : Nat}

theorem ShutTo.aside (hp : p.ShutTo k) (haside : p.Aside q) : q.ShutTo k := by
  refine ⟨fun i hi => ?_, ?_⟩
  · obtain ⟨hclosed, hidle⟩ := hp.shards i hi
    have hstays := haside.shard i
    exact ⟨hstays.closed.trans hclosed, hstays.empty hclosed hidle⟩
  · rw [haside.closures, hp.closures]
    exact List.map_congr_left fun i _ => (haside.shard i).address.symm

theorem Finished.aside (hp : p.Finished) (haside : p.Aside q) (hchecker : q.checker = .stopped) :
    q.Finished :=
  ⟨haside.closed.trans hp.closed, hchecker, haside.length ▸ hp.shut.aside haside⟩

theorem Course.aside {l : List Closing} (hp : p.Course l) (haside : p.Aside q)
    (hchecker : p.checker = .stopped → q.checker = .stopped) : q.Course l := by
  cases hp with
  | opened hopen hshut => exact .opened (haside.closed.trans hopen) (hshut.aside haside)
  | joining hclosed hshut => exact .joining (haside.closed.trans hclosed) (hshut.aside haside)
  | draining hclosed hstopped hi hshard hshut =>
    exact .draining (haside.closed.trans hclosed) (hchecker hstopped) (haside.length ▸ hi)
      ((haside.shard _).closed.trans hshard) (hshut.aside haside)
  | finished hfinished =>
    exact .finished (hfinished.aside haside (hchecker hfinished.checker))

theorem ShutTo.closures_eq (hp : p.ShutTo k) (hk : k ≤ p.shards.length) :
    p.closures = (p.shards.map Shard.address).take k := by
  rw [hp.closures]
  refine List.ext_getElem (by simp [hk]) fun i hi _ => ?_
  rw [List.length_map, List.length_range] at hi
  simp [shard_eq_getElem (Nat.lt_of_lt_of_le hi hk)]

/-- Shards are closed in the order of their addresses, and none a second time. -/
theorem Course.prefix_closures {l : List Closing} (hp : p.Course l) :
    p.closures <+: p.shards.map Shard.address := by
  have hprefix {k : Nat} (hk : k ≤ p.shards.length) (hshut : p.ShutTo k) :
      p.closures <+: p.shards.map Shard.address := by
    rw [hshut.closures_eq hk]
    exact List.take_prefix _ _
  cases hp with
  | opened _ hshut | joining _ hshut => exact hprefix (Nat.zero_le _) hshut
  | draining _ _ hi _ hshut => exact hprefix (Nat.le_of_lt hi) hshut
  | finished hfinished => exact hprefix (Nat.le_refl _) hfinished.shut

/-- At most one shutdown is at work. -/
theorem Course.only {pre post : List Closing} {s : Closing}
    (hp : p.Course (pre ++ [s] ++ post)) : pre = [] ∧ post = [] := by
  have hone : (pre ++ [s] ++ post).length ≤ 1 := by
    revert hp
    generalize pre ++ [s] ++ post = l
    intro hp
    cases hp <;> simp
  simp only [List.length_append, List.length_singleton] at hone
  exact ⟨List.length_eq_zero_iff.mp (by omega), List.length_eq_zero_iff.mp (by omega)⟩

section Work

/-- A shard that is closed and emptied, after those before it. -/
theorem ShutTo.succ (hp : p.ShutTo i) (hclosed : (p.shard i).closed = true)
    (hidle : (p.shard i).idle = []) (drained : Nat) :
    (p.note (.shardClosed (p.shard i).address drained)).ShutTo (i + 1) := by
  refine ⟨fun j hj => ?_, ?_⟩
  · obtain hj | rfl := Nat.lt_succ_iff_lt_or_eq.mp hj
    · exact hp.shards j hj
    · exact ⟨hclosed, hidle⟩
  · rw [closures_note, hp.closures, List.range_succ, List.map_append]
    rfl

/-- What a shutdown at work comes to. -/
structure Shuts (r : Pool × Progress Closing Unit) : Prop where
  course : r.1.Course r.2.closing
  finished : r.2 = .done () → r.1.Finished

theorem shuts_pop (hclosed : p.closed = true) (hstopped : p.checker = .stopped)
    (hi : i < p.shards.length) (hshard : (p.shard i).closed = true) (hshut : p.ShutTo i)
    (c : ConnId) (drained : Nat) :
    Shuts ((p.dropIdle i).count i Tally.countClose, .waits (.draining i c drained)) := by
  have haside : p.Aside ((p.dropIdle i).count i Tally.countClose) :=
    (Aside.dropIdle p i).trans (.count _ i _)
  refine ⟨.draining (haside.closed.trans hclosed) hstopped ?_ ?_ (hshut.aside haside), ?_⟩
  · simpa using hi
  · exact (haside.shard i).closed.trans hshard
  · intro hdone
    cases hdone

theorem shuts_closeLast (hclosed : p.closed = true) (hstopped : p.checker = .stopped) {left : Nat}
    (hleft : left ≤ p.shards.length) (hshut : p.ShutTo (p.shards.length - left)) :
    Shuts (p.closeLast left) := by
  induction left generalizing p with
  | zero =>
    have hfinished : (p.note (.poolShutDown p.shards.length)).Finished :=
      ⟨hclosed, hstopped, hshut.aside (.note p rfl)⟩
    exact ⟨.finished hfinished, fun _ => hfinished⟩
  | succ left ih =>
    unfold closeLast
    dsimp only
    generalize hi : p.shards.length - (left + 1) = i at hshut ⊢
    have hlt : i < p.shards.length := by omega
    let q := p.modifyShard i fun s => { s with closed := true }
    have hshard : (q.shard i).closed = true := by
      rw [shard_modifyShard_self hlt]
    have hother : ∀ j < i, q.shard j = p.shard j := fun j hj =>
      shard_modifyShard_of_ne (Nat.ne_of_gt hj)
    have hq : q.ShutTo i := by
      refine ⟨fun j hj => ?_, ?_⟩
      · rw [hother j hj]
        exact hshut.shards j hj
      · refine hshut.closures.trans (List.map_congr_left fun j hj => ?_)
        rw [hother j (List.mem_range.mp hj)]
    have hlen : q.shards.length = p.shards.length := length_shards_modifyShard
    split
    · exact shuts_pop (p := q) hclosed hstopped (hlen ▸ hlt) hshard hq _ 0
    · rename_i hidle
      have hnext := hq.succ hshard hidle 0
      have hleft' : (q.note (.shardClosed (q.shard i).address 0)).shards.length - left = i + 1 := by
        change q.shards.length - left = i + 1
        omega
      exact ih hclosed hstopped (by change left ≤ q.shards.length; omega) (hleft' ▸ hnext)

theorem shuts_closeOn (hclosed : p.closed = true) (hstopped : p.checker = .stopped)
    (hi : i < p.shards.length) (hshard : (p.shard i).closed = true) (hshut : p.ShutTo i)
    (drained : Nat) : Shuts (p.closeOn i drained) := by
  unfold closeOn
  split
  · exact shuts_pop hclosed hstopped hi hshard hshut _ drained
  · rename_i hidle
    refine shuts_closeLast (p := p.note _) hclosed hstopped (Nat.sub_le _ _) ?_
    have hleft : (p.note (.shardClosed (p.shard i).address drained)).shards.length -
        (p.shards.length - (i + 1)) = i + 1 := by
      change p.shards.length - (p.shards.length - (i + 1)) = i + 1
      omega
    rw [hleft]
    exact hshut.succ hshard hidle drained

theorem shuts_enterShutdown (hp : p.Course []) : Shuts p.enterShutdown := by
  unfold enterShutdown
  cases hp with
  | opened hopen hshut =>
    rw [if_neg (by simp [hopen])]
    have haside : p.ShutTo 0 → ({ p with closed := true, stopping := true } : Pool).ShutTo 0 :=
      fun hshut => ⟨hshut.shards, hshut.closures⟩
    refine ⟨.joining rfl (haside hshut), ?_⟩
    intro hdone
    cases hdone
  | finished hfinished =>
    rw [if_pos hfinished.closed]
    have hfinished' : (p.note .alreadyShutDown).Finished := 
      hfinished.aside (.note p rfl) hfinished.checker
    exact ⟨.finished hfinished', fun _ => hfinished'⟩

/-- Every step of a shutdown at work takes it further. -/
theorem shuts_resumeShutdown {s : Closing} (hp : p.Course [s]) (reply : Reply) :
    Shuts (p.resumeShutdown s reply) := by
  cases hp with
  | joining hclosed hshut =>
    by_cases hstopped : p.checker = .stopped
    · simp only [resumeShutdown, hstopped, if_true]
      exact shuts_closeLast hclosed hstopped (Nat.le_refl _) (by rwa [Nat.sub_self])
    · simp only [resumeShutdown, hstopped, if_false]
      refine ⟨.joining hclosed hshut, ?_⟩
      intro hdone
      cases hdone
  | @draining i c drained hclosed hstopped hi hshard hshut =>
    have haside := Aside.noteIdleClose p i reply
    have hquiet := quiet_noteIdleClose p i reply
    exact shuts_closeOn (haside.closed.trans hclosed) (hquiet.checker.trans hstopped)
      (hquiet.shards ▸ hi) ((haside.shard i).closed.trans hshard) (hshut.aside haside) _

end Work

section Step

/-- What an action that gives the answer `a` is for the shutdowns of a pool. -/
structure Steps (p q : Pool) (a : Option Answer) : Prop where
  course : q.Course q.closers
  finished : p.Finished → p.closers = [] → q.Finished ∧ q.closers = []
  answered : a = some .shutDown → q.Finished ∧ q.closers = []

private theorem closers_start (hwf : p.WellFormed) (request : Request) :
    (p.start request).1.closers = p.closers ++ (p.begin request).2.closers := by
  have htasks := (leads_begin hwf request).moves.tasks_eq
  unfold start
  rcases hbegin : p.begin request with ⟨m, t | a⟩ <;> rw [hbegin] at htasks <;>
    change m.tasks = p.tasks at htasks
  · simp only [closers, tasks_askFor, htasks, List.filterMap_append]
    cases hclosing : t.closing? <;> simp [Progress.closers, hclosing]
  · simp [closers, htasks, Progress.closers]

/-- The step of a task changes what it is at work on, and nothing for the others. -/
theorem closers_resume (hwf : p.WellFormed) {id : TaskId} {t : Task} (ht : p.task? id = some t)
    (reply : Reply) : ∃ pre post, p.closers = pre ++ t.closing?.toList ++ post ∧
      (p.resume id reply).1.closers = pre ++ (p.advance t reply).2.closers ++ post := by
  obtain ⟨pre, post, hsplit, hother⟩ := hwf.exists_tasks_eq ht
  have hverdict : ∀ v, t = .verdict v → v.shard < p.shards.length := by
    rintro v rfl
    exact hwf.verdicts id v (hsplit ▸ by simp)
  have htasks := (leads_advance hwf.shards hverdict reply).moves.tasks_eq
  refine ⟨pre.filterMap (·.2.closing?), post.filterMap (·.2.closing?), ?_, ?_⟩
  · rw [closers, hsplit]
    cases hclosing : t.closing? <;> simp [hclosing]
  · simp only [resume, ht]
    rcases hadvance : p.advance t reply with ⟨m, t' | a⟩ <;> rw [hadvance] at htasks <;>
      change m.tasks = p.tasks at htasks
    · simp only [closers, tasks_askFor, htasks, hsplit, map_tasks hother]
      cases hclosing : t'.closing? <;> simp [Progress.closers, hclosing]
    · simp only [closers, htasks, hsplit, filter_tasks hother]
      simp [Progress.closers]

theorem aside_start (p : Pool) (request : Request) :
    (p.begin request).1.Aside (p.start request).1 ∧
      (p.start request).1.checker = (p.begin request).1.checker := by
  unfold start
  rcases p.begin request with ⟨m, t | a⟩
  · let m' : Pool := { m with tasks := m.tasks ++ [(m.nextTask, t)], nextTask := m.nextTask + 1 }
    have hm : m.Aside m' := .of_eq rfl rfl rfl
    exact ⟨hm.trans (.askFor m' t), checker_askFor m' t⟩
  · exact ⟨.refl m, rfl⟩

theorem aside_resume {id : TaskId} {t : Task} (ht : p.task? id = some t) (reply : Reply) :
    (p.advance t reply).1.Aside (p.resume id reply).1 ∧
      (p.resume id reply).1.checker = (p.advance t reply).1.checker := by
  simp only [resume, ht]
  rcases p.advance t reply with ⟨m, t' | a⟩
  · have hm (tasks : List (TaskId × Task)) : m.Aside { m with tasks } := .of_eq rfl rfl rfl
    exact ⟨(hm _).trans (.askFor _ t'), checker_askFor _ t'⟩
  · exact ⟨.of_eq rfl rfl rfl, rfl⟩

theorem closers_eq_nil_of_not_underWay (hunder : p.shutdownUnderWay = false) : p.closers = [] := by
  rw [closers, List.filterMap_eq_nil_iff]
  intro x hx
  simp only [shutdownUnderWay, List.any_eq_false] at hunder
  obtain ⟨id, t⟩ := x
  have hnone := hunder (id, t) hx
  cases t with
  | shutdown s => cases s <;> simp_all [Task.closing?]
  | _ => rfl

theorem closers_map {σ α : Type} {g : σ → Task} (hg : ∀ s, (g s).closing? = none)
    (w : Progress σ α) (a : α → Answer) : (w.map g a).closers = [] := by
  cases w with
  | waits s => simp [Progress.map, Progress.closers, hg]
  | done _ => rfl

private theorem closers_begin {request : Request} (hrequest : request ≠ .shutdown) :
    (p.begin request).2.closers = [] := by
  cases request with
  | strayPut => rfl
  | shutdown => exact absurd rfl hrequest
  | _ => exact closers_map (fun _ => rfl) _ _

private theorem closers_advance {t : Task} (ht : ∀ s, t ≠ .shutdown s) (reply : Reply) :
    (p.advance t reply).2.closers = [] := by
  cases t with
  | put c => rfl
  | strayPut => rfl
  | shutdown s => exact absurd rfl (ht s)
  | _ => exact closers_map (fun _ => rfl) _ _

theorem Shuts.closers {r : Pool × Progress Closing Unit} (hshuts : Shuts r) :
    (r.2.map Task.shutdown fun _ => Answer.shutDown).closers = r.2.closing := by
  obtain ⟨q, s | _⟩ := r
  · have hcourse : q.Course [s] := hshuts.course
    cases hcourse <;> rfl
  · rfl

theorem answer_of_map {w : Progress Closing Unit}
    (hw : (w.map Task.shutdown fun _ => Answer.shutDown) = .done .shutDown) : w = .done () := by
  obtain ⟨_, hw, -⟩ := Progress.map_eq_done.mp hw
  exact hw

/-- A shutdown that has its turn on a pool that is shut down is done. -/
theorem Finished.enterShutdown (hp : p.Finished) : p.enterShutdown.2 = .done () := by
  rw [Pool.enterShutdown, if_pos hp.closed]

theorem turn_of_stopped (hstopped : p.checker = .stopped) : p.turn = p := by
  simp only [turn, hstopped]

theorem resumeChecker_of_stopped (hstopped : p.checker = .stopped) (reply : Reply) :
    p.resumeChecker reply = p := by
  simp only [resumeChecker, hstopped]

/-- A step of a shutdown: one enters while none is at work, and the one at work goes on. -/
inductive Works (p : Pool) : Pool × Progress Closing Unit → Prop
  | enters : p.closers = [] → Works p p.enterShutdown
  | goesOn {s} (reply : Reply) : p.closers = [s] → Works p (p.resumeShutdown s reply)

/-- An action that has no part in the work of a shutdown. -/
structure Apart (p : Pool) (a : Action) : Prop where
  aside : p.Aside (p.act a)
  closers : (p.act a).closers = p.closers
  checker : p.checker = .stopped → (p.act a).checker = .stopped
  answer : p.answer? a ≠ some .shutDown

/-- An action that brings the step of a shutdown at work to `r`. -/
structure Furthers (p : Pool) (a : Action) (r : Pool × Progress Closing Unit) : Prop where
  works : p.Works r
  aside : r.1.Aside (p.act a)
  closers : (p.act a).closers = r.2.closing
  checker : (p.act a).checker = r.1.checker
  answer : p.answer? a = some .shutDown → r.2 = .done ()

theorem Works.shuts {r : Pool × Progress Closing Unit} (hworks : p.Works r)
    (hp : p.Course p.closers) : Shuts r := by
  cases hworks with
  | enters hnone => exact shuts_enterShutdown (hnone ▸ hp)
  | goesOn reply hone => exact shuts_resumeShutdown (hone ▸ hp) reply

private theorem apart_or_furthers_start (hwf : p.WellFormed) (hp : p.Course p.closers)
    (request : Request) :
    p.Apart (.start request) ∨ ∃ r, p.Furthers (.start request) r := by
  obtain ⟨haside, hchecker⟩ := aside_start p request
  have hclosers := closers_start hwf request
  by_cases hrequest : request = .shutdown
  · subst hrequest
    by_cases hqueue : (p.shutdownUnderWay || p.shutdownQueued) = true
    · have hbegin : p.begin .shutdown = (p, .waits (.shutdown .queued)) := by
        simp only [begin, shutdown, hqueue, if_true, Prod.map, Progress.map, id]
      rw [hbegin] at haside hchecker hclosers
      refine .inl ⟨haside, hclosers.trans (List.append_nil _),
        fun hstopped => hchecker.trans hstopped, fun hanswer => ?_⟩
      rw [answer?_start_eq_some_iff, hbegin] at hanswer
      cases hanswer
    · have hbegin : p.begin .shutdown =
          p.enterShutdown.map id (·.map .shutdown fun _ => .shutDown) := by
        simp only [begin, shutdown, hqueue, Bool.false_eq_true, if_false]
      rw [Bool.not_eq_true, Bool.or_eq_false_iff] at hqueue
      have hnone := closers_eq_nil_of_not_underWay hqueue.1
      have hworks : p.Works p.enterShutdown := .enters hnone
      rw [hbegin] at haside hchecker hclosers
      refine .inr ⟨_, hworks, haside, ?_, hchecker, fun hanswer => ?_⟩
      · exact hclosers.trans (hnone ▸ (hworks.shuts hp).closers)
      · rw [answer?_start_eq_some_iff, hbegin] at hanswer
        exact answer_of_map hanswer
  · refine .inl ⟨(Aside.begin p hrequest).trans haside, ?_, fun hstopped => ?_, ?_⟩
    · exact hclosers.trans (by rw [closers_begin hrequest, List.append_nil])
    · exact hchecker.trans ((leads_begin hwf request).moves.checker_eq.trans hstopped)
    · exact fun hanswer =>
        hrequest (begin_eq_done_shutDown (answer?_start_eq_some_iff.mp hanswer))

/-- A shutdown that goes on, or goes to work, while no other one is at work. -/
theorem furthers_resume (hwf : p.WellFormed) (hp : p.Course p.closers) {id : TaskId} {s : Closing}
    {reply : Reply} (ht : p.task? id = some (.shutdown s))
    (hone : p.closers = (Task.shutdown s).closing?.toList)
    (hworks : p.Works (p.resumeShutdown s reply)) :
    p.Furthers (.resume id reply) (p.resumeShutdown s reply) := by
  obtain ⟨haside, hchecker⟩ := aside_resume ht reply
  obtain ⟨pre, post, hbefore, hafter⟩ := closers_resume hwf ht reply
  have hlen := congrArg List.length (hbefore.symm.trans hone)
  simp only [List.length_append] at hlen
  obtain rfl : pre = [] := List.eq_nil_of_length_eq_zero (by omega)
  obtain rfl : post = [] := List.eq_nil_of_length_eq_zero (by omega)
  refine ⟨hworks, haside, ?_, hchecker, fun hanswer => answer_of_map (advance_of_answer ht hanswer)⟩
  refine hafter.trans ?_
  rw [List.nil_append, List.append_nil]
  exact (hworks.shuts hp).closers

/-- A shutdown in the queue goes to work when no other one is at work. -/
theorem apart_or_furthers_queued (hwf : p.WellFormed) (hp : p.Course p.closers) {id : TaskId}
    {reply : Reply} (ht : p.task? id = some (.shutdown .queued)) :
    p.Apart (.resume id reply) ∨ ∃ r, p.Furthers (.resume id reply) r := by
  obtain ⟨haside, hchecker⟩ := aside_resume ht reply
  obtain ⟨pre, post, hbefore, hafter⟩ := closers_resume hwf ht reply
  by_cases hunder : p.shutdownUnderWay = true
  · have hadvance : p.advance (.shutdown .queued) reply = (p, .waits (.shutdown .queued)) := by
      simp only [advance, resumeShutdown, hunder, if_true, Prod.map, Progress.map]
      rfl
    rw [hadvance] at haside hchecker hafter
    refine .inl ⟨haside, hafter.trans hbefore.symm, fun hstopped => hchecker.trans hstopped,
      fun hanswer => ?_⟩
    have hdone := advance_of_answer ht hanswer
    rw [hadvance] at hdone
    cases hdone
  · rw [Bool.not_eq_true] at hunder
    have hnone := closers_eq_nil_of_not_underWay hunder
    have hresume : p.resumeShutdown .queued reply = p.enterShutdown := by
      simp only [resumeShutdown, hunder, Bool.false_eq_true, if_false]
    exact .inr ⟨_, furthers_resume hwf hp ht hnone (hresume ▸ .enters hnone)⟩

private theorem apart_or_furthers_shutdown (hwf : p.WellFormed) (hp : p.Course p.closers)
    {id : TaskId} {s : Closing} {reply : Reply} (ht : p.task? id = some (.shutdown s)) :
    p.Apart (.resume id reply) ∨ ∃ r, p.Furthers (.resume id reply) r := by
  by_cases hqueued : s = .queued
  · exact apart_or_furthers_queued hwf hp (hqueued ▸ ht)
  -- A shutdown at work is the only one.
  · have hclosing : (Task.shutdown s).closing? = some s := by
      cases s with
      | queued => exact absurd rfl hqueued
      | _ => rfl
    obtain ⟨pre, post, hbefore, -⟩ := closers_resume hwf ht reply
    rw [hclosing, Option.toList_some] at hbefore
    obtain ⟨rfl, rfl⟩ := (hbefore ▸ hp : p.Course (pre ++ [s] ++ post)).only
    have hone : p.closers = [s] := hbefore
    exact .inr ⟨_, furthers_resume hwf hp ht (by rw [hclosing, hone, Option.toList_some])
      (.goesOn reply hone)⟩

/-- The step of a task that is no shutdown. -/
theorem apart_resume (hwf : p.WellFormed) {id : TaskId} {t : Task} {reply : Reply}
    (ht : p.task? id = some t) (hshutdown : ∀ s, t ≠ .shutdown s) :
    p.Apart (.resume id reply) := by
  obtain ⟨haside, hchecker⟩ := aside_resume ht reply
  obtain ⟨pre, post, hbefore, hafter⟩ := closers_resume hwf ht reply
  have hverdict : ∀ v, t = .verdict v → v.shard < p.shards.length := by
    rintro v rfl
    exact hwf.verdicts id v (hwf.task?_eq_some_iff.mp ht)
  have hleads := leads_advance hwf.shards hverdict reply
  have hclosing : t.closing? = none := by
    cases t with
    | shutdown s => exact absurd rfl (hshutdown s)
    | _ => rfl
  refine ⟨(Aside.advance p hshutdown reply).trans haside, hafter.trans ?_,
    fun hstopped => hchecker.trans (hleads.moves.checker_eq.trans hstopped), fun hanswer => ?_⟩
  · rw [hbefore, closers_advance hshutdown, hclosing]
    rfl
  · obtain ⟨s, hs⟩ := advance_eq_done_shutDown (advance_of_answer ht hanswer)
    exact hshutdown s hs

/-- What an action is for the shutdowns of a pool. -/
theorem apart_or_furthers (hwf : p.WellFormed) (hp : p.Course p.closers) (a : Action) :
    p.Apart a ∨ ∃ r, p.Furthers a r := by
  have hkept {q : Pool} (htasks : q.tasks = p.tasks) : q.closers = p.closers := by
    rw [closers, htasks, closers]
  cases a with
  | start request => exact apart_or_furthers_start hwf hp request
  | resume id reply =>
    cases ht : p.task? id with
    | none =>
      have hresume : p.resume id reply = (p, none) := by simp only [resume, ht]
      have hact : p.act (.resume id reply) = p := congrArg Prod.fst hresume
      have haside : p.Aside (p.act (.resume id reply)) := by
        rw [hact]
        exact .refl p
      exact .inl ⟨haside, by rw [hact], fun hstopped => by rw [hact, hstopped],
        by simp [answer?, hresume]⟩
    | some t =>
      by_cases hshutdown : ∃ s, t = .shutdown s
      · obtain ⟨s, rfl⟩ := hshutdown
        exact apart_or_furthers_shutdown hwf hp ht
      · exact .inl (apart_resume hwf ht (not_exists.mp hshutdown))
  | turn =>
    exact .inl ⟨.turn p, hkept (tasksKept_turn hwf).1,
      fun hstopped => (congrArg checker (turn_of_stopped hstopped)).trans hstopped,
      by simp [answer?]⟩
  | resumeChecker reply =>
    exact .inl ⟨.resumeChecker p reply, hkept (tasksKept_resumeChecker hwf reply).1,
      fun hstopped => (congrArg checker (resumeChecker_of_stopped hstopped reply)).trans hstopped,
      by simp [answer?]⟩
  | setTime now | abandon =>
    exact .inl ⟨.of_eq rfl rfl rfl, rfl, fun hstopped => hstopped, by simp [answer?]⟩
  | takeStats =>
    exact .inl ⟨.recounted (recounted_takeStats p) rfl rfl, rfl, fun hstopped => hstopped,
      by simp [answer?]⟩
  | takeShardStats i =>
    exact .inl ⟨.recounted (recounted_takeShardStats p i) rfl rfl, rfl, fun hstopped => hstopped,
      by simp [answer?]⟩

theorem Furthers.steps {a : Action} {r : Pool × Progress Closing Unit} (hr : p.Furthers a r)
    (hp : p.Course p.closers) : p.Steps (p.act a) (p.answer? a) := by
  have hshuts := hr.works.shuts hp
  have hdone : r.2 = .done () → (p.act a).Finished ∧ (p.act a).closers = [] := by
    intro hdone
    have hover := hshuts.finished hdone
    refine ⟨hover.aside hr.aside (hr.checker.trans hover.checker), ?_⟩
    rw [hr.closers, hdone]
    rfl
  refine ⟨?_, fun hfinished hnone => hdone ?_, fun hanswer => hdone (hr.answer hanswer)⟩
  · rw [hr.closers]
    exact hshuts.course.aside hr.aside fun hstopped => hr.checker.trans hstopped
  · cases hr.works with
    | enters => exact hfinished.enterShutdown
    | goesOn reply hone => simp [hone] at hnone

theorem steps_act (hwf : p.WellFormed) (hp : p.Course p.closers) (a : Action) :
    p.Steps (p.act a) (p.answer? a) := by
  obtain ha | ⟨r, hr⟩ := apart_or_furthers hwf hp a
  · exact ⟨ha.closers ▸ hp.aside ha.aside ha.checker,
      fun hfinished hnone =>
        ⟨hfinished.aside ha.aside (ha.checker hfinished.checker), ha.closers.trans hnone⟩,
      fun hanswer => absurd hanswer ha.answer⟩
  · exact hr.steps hp

end Step

section Order

/-- No shard is shut before a shutdown at work comes to it. -/
structure Untouched (p : Pool) : Prop where
  opened : p.closed = false → ∀ i, (p.shard i).closed = false
  ahead : ∀ s ∈ p.closers, ∀ i, s.reached ≤ i → (p.shard i).closed = false

theorem Untouched.aside (hp : p.Untouched) (haside : p.Aside q) (hclosers : q.closers = p.closers) :
    q.Untouched where
  opened hopen i := (haside.shard i).closed.trans (hp.opened (haside.closed ▸ hopen) i)
  ahead s hs i hi := (haside.shard i).closed.trans (hp.ahead s (hclosers ▸ hs) i hi)

/-- The shards that come last are shut in their order: those behind the one at which this comes to
wait are open. -/
theorem closeLast_eq_waits {left : Nat} {s : Closing} (hleft : left ≤ p.shards.length)
    (hahead : ∀ i, p.shards.length - left ≤ i → (p.shard i).closed = false)
    (hwaits : (p.closeLast left).2 = .waits s) :
    p.shards.length - left < s.reached ∧
      ∀ i, s.reached ≤ i → ((p.closeLast left).1.shard i).closed = false := by
  induction left generalizing p with
  | zero => cases hwaits
  | succ left ih =>
    unfold closeLast at hwaits ⊢
    dsimp only at hwaits ⊢
    generalize hj : p.shards.length - (left + 1) = j at hahead hwaits ⊢
    let q := p.modifyShard j fun s => { s with closed := true }
    have hbehind : ∀ i, j + 1 ≤ i → (q.shard i).closed = false := by
      intro i hi
      rw [shard_modifyShard_of_ne (Nat.ne_of_lt hi)]
      exact hahead i (Nat.le_of_succ_le hi)
    revert hwaits
    split
    · rename_i c _ _
      intro hwaits
      obtain rfl := Progress.waits.inj hwaits
      have haside : q.Aside ((q.dropIdle j).count j Tally.countClose) :=
        (Aside.dropIdle q j).trans (.count _ j _)
      exact ⟨Nat.lt_succ_self j, fun i hi => (haside.shard i).closed.trans (hbehind i hi)⟩
    · intro hwaits
      have hlen : (q.note (.shardClosed (q.shard j).address 0)).shards.length = p.shards.length :=
        length_shards_modifyShard
      obtain ⟨hreached, hrest⟩ := ih (p := q.note (.shardClosed (q.shard j).address 0))
        (by omega) (fun i hi => hbehind i (by omega)) hwaits
      exact ⟨by omega, hrest⟩

/-- A shutdown at work goes on to drain the shard it was at, or shuts another one, which was open. -/
theorem closeOn_eq_waits {drained : Nat} {s : Closing} (hi : i < p.shards.length)
    (hahead : ∀ j, i < j → (p.shard j).closed = false)
    (hwaits : (p.closeOn i drained).2 = .waits s) :
    (i + 1 < s.reached ∨ ∃ c, s = .draining i c drained) ∧
      ∀ j, s.reached ≤ j → ((p.closeOn i drained).1.shard j).closed = false := by
  revert hwaits
  unfold closeOn
  split
  · rename_i c _ _
    intro hwaits
    obtain rfl := Progress.waits.inj hwaits
    have haside : p.Aside ((p.dropIdle i).count i Tally.countClose) :=
      (Aside.dropIdle p i).trans (.count _ i _)
    exact ⟨.inr ⟨c, rfl⟩, fun j hj => (haside.shard j).closed.trans (hahead j hj)⟩
  · intro hwaits
    have hlen : (p.note (.shardClosed (p.shard i).address drained)).shards.length =
        p.shards.length := rfl
    obtain ⟨hreached, hrest⟩ := closeLast_eq_waits
      (p := p.note (.shardClosed (p.shard i).address drained)) (by omega)
      (fun j hj => hahead j (by omega)) hwaits
    exact ⟨.inl (by omega), hrest⟩

theorem Shuts.closed {r : Pool × Progress Closing Unit} (hshuts : Shuts r) : r.1.closed = true := by
  obtain ⟨q, s | _⟩ := r
  · have hcourse : q.Course [s] := hshuts.course
    cases hcourse with
    | joining hclosed _ => exact hclosed
    | draining hclosed _ _ _ _ => exact hclosed
  · exact (hshuts.finished rfl).closed

/-- A shutdown that comes to wait has shut no shard before its turn; where it comes to drain a shard,
this was open, or being drained by it already. -/
theorem Works.eq_waits {r : Pool × Progress Closing Unit} {s : Closing} (hworks : p.Works r)
    (hcourse : p.Course p.closers) (hp : p.Untouched) (hwaits : r.2 = .waits s) :
    (∀ i, s.reached ≤ i → (r.1.shard i).closed = false) ∧
      ∀ i c n, s = .draining i c n → (p.shard i).closed = false ∨
        ∃ d m, .draining i d m ∈ p.closers := by
  cases hworks with
  | enters hnone =>
    revert hwaits
    unfold enterShutdown
    split
    · intro hwaits
      cases hwaits
    · rename_i hopen
      intro hwaits
      obtain rfl := Progress.waits.inj hwaits
      exact ⟨fun i _ => hp.opened (Bool.not_eq_true _ ▸ hopen) i, nofun⟩
  | @goesOn s₀ reply hone =>
    have hs₀ : s₀ ∈ p.closers := hone ▸ List.mem_cons_self
    have hahead := hp.ahead s₀ hs₀
    cases s₀ with
    | queued =>
      rw [hone] at hcourse
      cases hcourse
    | joining =>
      revert hwaits
      unfold resumeShutdown
      dsimp only
      split
      · intro hwaits
        obtain ⟨-, hrest⟩ := closeLast_eq_waits (Nat.le_refl _)
          (fun i _ => hahead i (Nat.zero_le i)) hwaits
        exact ⟨hrest, fun i _ _ _ => .inl (hahead i (Nat.zero_le i))⟩
      · intro hwaits
        obtain rfl := Progress.waits.inj hwaits
        exact ⟨hahead, nofun⟩
    | draining j c n =>
      have hj : j < p.shards.length := by
        rw [hone] at hcourse
        cases hcourse
        assumption
      have hquiet := quiet_noteIdleClose p j reply
      have hshard : ∀ i, (p.noteIdleClose j reply).shard i = p.shard i := fun i => by
        rw [shard, hquiet.shards, shard]
      obtain ⟨hreached, hrest⟩ := closeOn_eq_waits (p := p.noteIdleClose j reply)
        (hquiet.shards ▸ hj) (fun i hi => by rw [hshard]; exact hahead i hi) hwaits
      refine ⟨hrest, fun i d m hs => ?_⟩
      subst hs
      obtain hlt | ⟨d', hd'⟩ := hreached
      · exact .inl (hahead i (Nat.le_of_lt_succ hlt))
      · cases hd'
        exact .inr ⟨c, n, hs₀⟩

theorem Untouched.act (hp : p.Untouched) (hwf : p.WellFormed) (hcourse : p.Course p.closers)
    (a : Action) : (p.act a).Untouched := by
  obtain ha | ⟨r, hr⟩ := apart_or_furthers hwf hcourse a
  · exact hp.aside ha.aside ha.closers
  constructor
  · intro hopen
    rw [hr.aside.closed, (hr.works.shuts hcourse).closed] at hopen
    cases hopen
  · intro s hs i hi
    rw [hr.closers] at hs
    have hwaits : r.2 = .waits s := by
      obtain ⟨q, s' | _⟩ := r
      · rw [List.mem_singleton.mp hs]
      · cases hs
    exact (hr.aside.shard i).closed.trans ((hr.works.eq_waits hcourse hp hwaits).1 i hi)

end Order

section Run

theorem course_of_create {config : Config} {addresses : List String} {now : Duration}
    (hcreate : create config addresses now = .ok p) : p.Course p.closers := by
  obtain ⟨_, _, rfl⟩ := eq_of_create hcreate
  exact .opened rfl ⟨fun i hi => absurd hi (Nat.not_lt_zero i), rfl⟩

theorem untouched_of_create {config : Config} {addresses : List String} {now : Duration}
    (hcreate : create config addresses now = .ok p) : p.Untouched := by
  refine ⟨fun _ i => ?_, fun s hs => ?_⟩
  · by_cases hi : i < addresses.length
    · rw [shard_of_create hcreate hi]
    · rw [shard_of_length_le (length_shards_of_create hcreate ▸ Nat.le_of_not_lt hi)]
      rfl
  · obtain ⟨_, _, rfl⟩ := eq_of_create hcreate
    cases hs

theorem Course.after (hp : p.Course p.closers) (hwf : p.WellFormed) (as : List Action) :
    (p.after as).Course (p.after as).closers := by
  induction as generalizing p with
  | nil => exact hp
  | cons a as ih => exact ih (steps_act hwf hp a).course (hwf.act a)

theorem Untouched.after (hp : p.Untouched) (hcourse : p.Course p.closers) (hwf : p.WellFormed)
    (as : List Action) : (p.after as).Untouched := by
  induction as generalizing p with
  | nil => exact hp
  | cons a as ih => exact ih (hp.act hwf hcourse a) (steps_act hwf hcourse a).course (hwf.act a)

/-- A pool that is shut down stays so. -/
theorem Finished.after (hp : p.Finished) (hnone : p.closers = []) (hwf : p.WellFormed)
    (as : List Action) : (p.after as).Finished := by
  induction as generalizing p with
  | nil => exact hp
  | cons a as ih =>
    obtain ⟨hp', hnone'⟩ := (steps_act hwf (hnone ▸ .finished hp) a).finished hp hnone
    exact ih hp' hnone' (hwf.act a)

/-- What holds of a pool over the addresses from the moment on in which a shutdown returns. -/
structure Over (p : Pool) (addresses : List String) : Prop where
  checker : p.checker = .stopped
  /-- The health checker does nothing more. -/
  still : p.turn = p ∧ ∀ reply, p.resumeChecker reply = p
  shards : ∀ s ∈ p.shards, s.closed = true ∧ s.idle = []
  /-- Every shard was closed, once, and in the order of the addresses. -/
  closures : p.closures = addresses
  gets : p.start .get = (p, .done (.refused .poolClosed))
  /-- A connection that is still lent has not been closed. It is when it comes back. -/
  returns : ∀ c broken, p.isLent c = true → p.closeCalls c = 0 ∧
    (∃ id, (p.start (.put c broken)).2 = .waits id) ∧
    ∀ as, (p.start (.put c broken)).1.Runs as → ((p.start (.put c broken)).1.after as).At c .closed

theorem Finished.over (hp : p.Finished) (hwf : p.WellFormed)
    (hconserved : p.Conserved .free p.held) : p.Over (p.shards.map Shard.address) where
  checker := hp.checker
  still := ⟨turn_of_stopped hp.checker, resumeChecker_of_stopped hp.checker⟩
  shards := by
    intro s hs
    obtain ⟨i, hi, rfl⟩ := List.mem_iff_getElem.mp hs
    rw [← shard_eq_getElem hi]
    exact hp.shut.shards i hi
  closures := (hp.shut.closures_eq (Nat.le_refl _)).trans (List.take_of_length_le (by simp))
  gets := by
    simp only [start, begin, get, hp.closed, if_true]
    rfl
  returns := by
    intro c broken hlent
    obtain ⟨conn, hconn, hborrowed⟩ := (Option.any_eq_true ..).mp hlent
    have hi := hwf.conns conn (List.mem_of_getElem? hconn)
    have hrefused : (broken || !(p.shard conn.shard).acceptsIdle) = true := by
      simp [Shard.acceptsIdle, (hp.shut.shards _ hi).1]
    exact ⟨(hconserved.lent hlent).2.2.2, hconserved.closed_of_put hwf hconn hborrowed hrefused⟩

/-- In no run of a pool is a shard closed twice. Whenever a shutdown returns the health checker has
stopped, every shard has been closed and no connection is idle. From then on it stays so: the health
checker does nothing more, every get is refused and changes nothing, and every connection that is
still lent, or is lent to a get that was under way, is closed once it is returned. -/
theorem shutdown_final {config : Config} {addresses : List String} {now : Duration}
    (hcreate : create config addresses now = .ok p) :
    (∀ as, p.Runs as → (p.after as).closures <+: addresses) ∧
      ∀ as a bs, p.Runs (as ++ a :: bs) → (p.after as).answer? a = some .shutDown →
        (p.after (as ++ a :: bs)).Over addresses := by
  have hwf := WellFormed.of_create hcreate
  have hcourse := course_of_create hcreate
  constructor
  · intro as hruns
    rw [← addresses_after hcreate hruns]
    exact (hcourse.after hwf as).prefix_closures
  · intro as a bs hruns hanswer
    have hsteps := steps_act (hwf.after as) (hcourse.after hwf as) a
    obtain ⟨hfinished, hnone⟩ := hsteps.answered hanswer
    have hover : (p.after (as ++ a :: bs)).Finished := by
      rw [after_append]
      exact hfinished.after hnone ((hwf.after as).act a) bs
    have hconserved := invariant_conserved.after hruns hwf (conserved_of_create hcreate)
    rw [← addresses_after hcreate hruns]
    exact hover.over (hwf.after _) hconserved

/-- Two shutdowns, while one connection is lent and another one is dialed. -/
theorem shutdown_final_two :
    ∃ p, create {} ["a:1", "b:1"] .zero = .ok p ∧ ∃ as a bs, p.Runs (as ++ a :: bs) ∧
      (p.after as).answer? a = some .shutDown ∧
      (p.after (as ++ a :: bs)).closures = ["a:1", "b:1"] ∧
      (p.after (as ++ a :: bs)).isLent 1 = true ∧
      ((p.after (as ++ a :: bs)).start (.put 1 false)).1.At 1 .closed := by
  let as : List Action := [.turn, .start .get, .resume 0 (.ok ()), .start .get, .start .shutdown,
    .start .shutdown, .turn]
  let bs : List Action := [.resume 3 (.ok ()), .resume 1 (.ok ())]
  have hcreate : create {} ["a:1", "b:1"] .zero = .ok _ := rfl
  have hover := (shutdown_final hcreate).2 as (.resume 2 (.ok ())) bs (by decide) (by decide)
  refine ⟨_, hcreate, as, .resume 2 (.ok ()), bs, by decide, by decide, hover.closures, by decide,
    ?_⟩
  exact (hover.returns 1 false (by decide)).2.2 [] trivial

end Run

end Pool

end QuorumPool
