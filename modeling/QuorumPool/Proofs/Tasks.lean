import QuorumPool.Proofs.WellFormed

namespace QuorumPool.Pool

variable {p q : Pool} {id : TaskId} {t : Task}

theorem WellFormed.task?_eq_some_iff (hwf : p.WellFormed) :
    p.task? id = some t ↔ (id, t) ∈ p.tasks := by
  constructor
  · intro ht
    obtain ⟨pre, post, htasks, _⟩ := hwf.exists_tasks_eq ht
    rw [htasks]
    exact List.mem_append_right _ List.mem_cons_self
  · intro ht
    obtain ⟨pre, post, htasks⟩ := List.append_of_mem ht
    exact hwf.task?_eq htasks

theorem tasks_askFor (p : Pool) (t : Task) : (p.askFor t).tasks = p.tasks := by
  obtain ⟨journal, hask⟩ := exists_askFor_eq p t
  rw [hask]

theorem nextTask_askFor (p : Pool) (t : Task) : (p.askFor t).nextTask = p.nextTask := by
  obtain ⟨journal, hask⟩ := exists_askFor_eq p t
  rw [hask]

theorem shards_askFor (p : Pool) (t : Task) : (p.askFor t).shards = p.shards := by
  obtain ⟨journal, hask⟩ := exists_askFor_eq p t
  rw [hask]

theorem checker_askFor (p : Pool) (t : Task) : (p.askFor t).checker = p.checker := by
  obtain ⟨journal, hask⟩ := exists_askFor_eq p t
  rw [hask]

/-- A step of a task changes the shards as its activity does. -/
theorem shards_resume (ht : p.task? id = some t) (reply : Reply) :
    (p.resume id reply).1.shards = (p.advance t reply).1.shards := by
  simp only [resume, ht]
  rcases p.advance t reply with ⟨q, t' | a⟩
  · exact shards_askFor _ t'
  · rfl

theorem shards_setErrand (p : Pool) (due : Duration) (w : Progress Errand Unit) :
    (p.setErrand due w).shards = p.shards := by
  unfold setErrand
  split
  · split <;> rfl
  · rfl

/-- Two pools with the same tasks in flight, and the same name for the next one. -/
def TasksKept (p q : Pool) : Prop := q.tasks = p.tasks ∧ q.nextTask = p.nextTask

theorem tasksKept_setErrand (p : Pool) (due : Duration) (w : Progress Errand Unit) :
    p.TasksKept (p.setErrand due w) := by
  refine ⟨tasks_setErrand p due w, ?_⟩
  unfold setErrand
  split
  · split <;> rfl
  · rfl

theorem tasksKept_resumeErrand {e : Errand} (hi : e.inspection.shard < p.shards.length)
    (due : Duration) (reply : Reply) :
    p.TasksKept ((p.resumeErrand e reply).1.setErrand due (p.resumeErrand e reply).2) := by
  have hmoves := (leads_resumeErrand hi reply).moves
  obtain ⟨htasks, hnext⟩ := tasksKept_setErrand (p.resumeErrand e reply).1 due
    (p.resumeErrand e reply).2
  exact ⟨htasks.trans hmoves.tasks_eq, hnext.trans hmoves.nextTask_eq⟩

theorem tasksKept_turn (hwf : p.WellFormed) : p.TasksKept p.turn := by
  unfold turn
  split
  · exact ⟨rfl, rfl⟩
  · split
    · exact ⟨rfl, rfl⟩
    split
    · exact tasksKept_setErrand _ _ _
    · split
      · exact tasksKept_setErrand _ _ _
      · exact ⟨rfl, rfl⟩
  · rename_i due e hchecker
    split
    · exact ⟨rfl, rfl⟩
    · exact tasksKept_resumeErrand (hwf.errand due e hchecker) due (.ok ())
  · exact ⟨rfl, rfl⟩

theorem tasksKept_resumeChecker (hwf : p.WellFormed) (reply : Reply) :
    p.TasksKept (p.resumeChecker reply) := by
  unfold resumeChecker
  split
  · rename_i due e hchecker
    split
    · exact tasksKept_resumeErrand (hwf.errand due e hchecker) due reply
    · exact ⟨rfl, rfl⟩
  · exact ⟨rfl, rfl⟩

/-- A request that comes to wait is a task under the next name. -/
theorem start_eq_waits (hwf : p.WellFormed) {request : Request}
    (hstart : (p.start request).2 = .waits id) : id = p.nextTask := by
  have hnext := (leads_begin hwf request).moves.nextTask_eq
  unfold start at hstart
  rcases hbegin : p.begin request with ⟨q, t | a⟩ <;> rw [hbegin] at hstart hnext
  · exact (Progress.waits.inj hstart).symm.trans hnext
  · cases hstart

/-- A request that has to wait is a task in flight. -/
theorem exists_task_of_start (hwf : p.WellFormed) {request : Request}
    (hstart : (p.start request).2 = .waits id) :
    ∃ t, (p.begin request).2 = .waits t ∧ (p.start request).1.task? id = some t := by
  have hmem : ∃ t, (p.begin request).2 = .waits t ∧ (id, t) ∈ (p.start request).1.tasks := by
    unfold start at hstart ⊢
    rcases hbegin : p.begin request with ⟨q, t | a⟩ <;> simp only [hbegin] at hstart ⊢
    · obtain rfl := Progress.waits.inj hstart
      refine ⟨t, rfl, ?_⟩
      rw [tasks_askFor]
      exact List.mem_append_right _ List.mem_cons_self
    · cases hstart
  obtain ⟨t, hbegin, hmem⟩ := hmem
  exact ⟨t, hbegin, (hwf.act (.start request)).task?_eq_some_iff.mpr hmem⟩

private theorem mem_tasks_start (hwf : p.WellFormed) {request : Request}
    (ht : (id, t) ∈ (p.start request).1.tasks) :
    (id, t) ∈ p.tasks ∨ id = p.nextTask ∧ (p.begin request).2 = .waits t := by
  have htasks := (leads_begin hwf request).moves.tasks_eq
  have hnext := (leads_begin hwf request).moves.nextTask_eq
  unfold start at ht
  rcases hbegin : p.begin request with ⟨q, u | a⟩ <;> rw [hbegin] at ht htasks hnext
  · rw [tasks_askFor] at ht
    obtain ht | ht := List.mem_append.mp ht
    · exact .inl (htasks ▸ ht)
    · obtain ⟨rfl, rfl⟩ := Prod.mk.inj (List.mem_singleton.mp ht)
      exact .inr ⟨hnext, rfl⟩
  · exact .inl (htasks ▸ ht)

private theorem mem_tasks_resume (hwf : p.WellFormed) {other : TaskId} {reply : Reply}
    (ht : (id, t) ∈ (p.resume other reply).1.tasks) :
    other ≠ id ∧ (id, t) ∈ p.tasks ∨
      other = id ∧ ∃ u, (id, u) ∈ p.tasks ∧ (p.advance u reply).2 = .waits t := by
  unfold resume at ht
  split at ht
  · rename_i hnone
    refine .inl ⟨?_, ht⟩
    rintro rfl
    rw [hwf.task?_eq_some_iff.mpr ht] at hnone
    cases hnone
  rename_i u hu
  have hmem := hwf.task?_eq_some_iff.mp hu
  have hverdict : ∀ v, u = .verdict v → v.shard < p.shards.length := by
    rintro v rfl
    exact hwf.verdicts other v hmem
  have htasks := (leads_advance hwf.shards hverdict reply).moves.tasks_eq
  rcases hadvance : p.advance u reply with ⟨q, u' | a⟩ <;> rw [hadvance] at ht htasks
  · rw [tasks_askFor] at ht
    obtain ⟨⟨i, old⟩, hold, heq⟩ := List.mem_map.mp ht
    dsimp only at heq
    split at heq
    · rename_i hi
      obtain ⟨rfl, rfl⟩ := Prod.mk.inj heq
      subst hi
      exact .inr ⟨rfl, u, hmem, by rw [hadvance]⟩
    · rename_i hi
      obtain ⟨rfl, rfl⟩ := Prod.mk.inj heq
      exact .inl ⟨fun hid => hi hid.symm, htasks ▸ hold⟩
  · obtain ⟨hold, hid⟩ := List.mem_filter.mp ht
    exact .inl ⟨by simpa using Ne.symm (by simpa using hid), htasks ▸ hold⟩

/-- After an action a task stands where it stood, or its own step has brought it there, or it has
just begun. -/
theorem mem_tasks_act (hwf : p.WellFormed) {a : Action} (ht : (id, t) ∈ (p.act a).tasks) :
    (∀ reply, a ≠ .resume id reply) ∧ (id, t) ∈ p.tasks ∨
      (∃ reply u, a = .resume id reply ∧ (id, u) ∈ p.tasks ∧ (p.advance u reply).2 = .waits t) ∨
      id = p.nextTask ∧ ∃ request, a = .start request ∧ (p.begin request).2 = .waits t := by
  cases a with
  | start request =>
    obtain ht | ⟨hid, hbegin⟩ := mem_tasks_start hwf ht
    · exact .inl ⟨by simp, ht⟩
    · exact .inr (.inr ⟨hid, request, rfl, hbegin⟩)
  | resume other reply =>
    obtain ⟨hother, ht⟩ | ⟨rfl, u, hu, hadvance⟩ := mem_tasks_resume hwf ht
    · exact .inl ⟨by simp [hother], ht⟩
    · exact .inr (.inl ⟨reply, u, rfl, hu, hadvance⟩)
  | turn => exact .inl ⟨by simp, (tasksKept_turn hwf).1 ▸ ht⟩
  | resumeChecker reply => exact .inl ⟨by simp, (tasksKept_resumeChecker hwf reply).1 ▸ ht⟩
  | setTime | takeStats | takeShardStats | abandon => exact .inl ⟨by simp, ht⟩

/-- Only its own step touches a task in flight. -/
theorem task?_act_of_ne (hwf : p.WellFormed) (ht : p.task? id = some t) {a : Action}
    (ha : ∀ reply, a ≠ .resume id reply) : (p.act a).task? id = some t := by
  refine (hwf.act a).task?_eq_some_iff.mpr ?_
  have hmem := hwf.task?_eq_some_iff.mp ht
  cases a with
  | start request =>
    have htasks := (leads_begin hwf request).moves.tasks_eq
    change (id, t) ∈ (p.start request).1.tasks
    unfold start
    rcases hbegin : p.begin request with ⟨q, u | a⟩ <;> rw [hbegin] at htasks
    · rw [tasks_askFor, htasks]
      exact List.mem_append_left _ hmem
    · exact htasks ▸ hmem
  | resume other reply =>
    have hother : id ≠ other := fun h => ha reply (h ▸ rfl)
    change (id, t) ∈ (p.resume other reply).1.tasks
    unfold resume
    split
    · exact hmem
    rename_i u hu
    have hverdict : ∀ v, u = .verdict v → v.shard < p.shards.length := by
      rintro v rfl
      exact hwf.verdicts other v (hwf.task?_eq_some_iff.mp hu)
    have htasks := (leads_advance hwf.shards hverdict reply).moves.tasks_eq
    rcases hadvance : p.advance u reply with ⟨q, u' | a⟩ <;> rw [hadvance] at htasks
    · rw [tasks_askFor, htasks]
      exact List.mem_map.mpr ⟨(id, t), hmem, if_neg hother⟩
    · have hold : (id, t) ∈ q.tasks := htasks ▸ hmem
      exact List.mem_filter.mpr ⟨hold, by simpa using hother⟩
  | turn => exact (tasksKept_turn hwf).1 ▸ hmem
  | resumeChecker reply => exact (tasksKept_resumeChecker hwf reply).1 ▸ hmem
  | setTime | takeStats | takeShardStats | abandon => exact hmem

/-- A task that takes a step stands where this has brought it. -/
theorem task?_resume (hwf : p.WellFormed) {u : Task} (hu : p.task? id = some u) {reply : Reply}
    (hadvance : (p.advance u reply).2 = .waits t) : (p.resume id reply).1.task? id = some t := by
  refine (hwf.resume id reply).task?_eq_some_iff.mpr ?_
  have hmem := hwf.task?_eq_some_iff.mp hu
  have hverdict : ∀ v, u = .verdict v → v.shard < p.shards.length := by
    rintro v rfl
    exact hwf.verdicts id v hmem
  have htasks := (leads_advance hwf.shards hverdict reply).moves.tasks_eq
  simp only [resume, hu]
  rcases hr : p.advance u reply with ⟨q, u' | a⟩ <;> rw [hr] at hadvance htasks
  · obtain rfl := Progress.waits.inj hadvance
    rw [tasks_askFor, htasks]
    exact List.mem_map.mpr ⟨(id, u), hmem, if_pos rfl⟩
  · cases hadvance

/-- Names are given once: the next name only goes up. -/
theorem nextTask_le_act (hwf : p.WellFormed) (a : Action) : p.nextTask ≤ (p.act a).nextTask := by
  cases a with
  | start request =>
    have hnext := (leads_begin hwf request).moves.nextTask_eq
    change p.nextTask ≤ (p.start request).1.nextTask
    unfold start
    rcases hbegin : p.begin request with ⟨q, u | a⟩ <;> rw [hbegin] at hnext
    · rw [nextTask_askFor, ← hnext]
      exact Nat.le_succ _
    · exact Nat.le_of_eq hnext.symm
  | resume id reply =>
    change p.nextTask ≤ (p.resume id reply).1.nextTask
    unfold resume
    split
    · exact Nat.le_refl _
    rename_i u hu
    have hverdict : ∀ v, u = .verdict v → v.shard < p.shards.length := by
      rintro v rfl
      exact hwf.verdicts id v (hwf.task?_eq_some_iff.mp hu)
    have hnext := (leads_advance hwf.shards hverdict reply).moves.nextTask_eq
    rcases hadvance : p.advance u reply with ⟨q, u' | a⟩ <;> rw [hadvance] at hnext
    · rw [nextTask_askFor]
      exact Nat.le_of_eq hnext.symm
    · exact Nat.le_of_eq hnext.symm
  | turn => exact Nat.le_of_eq (tasksKept_turn hwf).2.symm
  | resumeChecker reply => exact Nat.le_of_eq (tasksKept_resumeChecker hwf reply).2.symm
  | setTime | takeStats | takeShardStats | abandon => exact Nat.le_refl _

theorem nextTask_le_after (hwf : p.WellFormed) (as : List Action) :
    p.nextTask ≤ (p.after as).nextTask := by
  induction as generalizing p with
  | nil => exact Nat.le_refl _
  | cons a as ih => exact Nat.le_trans (nextTask_le_act hwf a) (ih (hwf.act a))

end QuorumPool.Pool
