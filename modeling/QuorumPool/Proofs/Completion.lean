import QuorumPool.Proofs.Effort

namespace QuorumPool.Pool

variable {p q : Pool} {i : Nat} {c : ConnId} {rest : List ConnId} {reply : Reply} {σ : Type}

section Closing

/-- A step of a shutdown that closes the shards comes to its end, or takes a connection out of an
idle queue. -/
def Closes (p : Pool) (r : Pool × Progress Closing Unit) : Prop :=
  r.2 = .done () ∨ ∃ i c drained, r.2 = .waits (.draining i c drained) ∧
    r.1.idleCount + 1 = p.idleCount

theorem closes_closeLast (left : Nat) : p.Closes (p.closeLast left) := by
  induction left generalizing p with
  | zero => exact .inl rfl
  | succ left ih =>
    unfold closeLast
    dsimp only
    generalize p.shards.length - (left + 1) = i
    have hclosed : (p.modifyShard i fun s => { s with closed := true }).idleCount = p.idleCount :=
      idleCount_modifyShard fun _ => rfl
    split
    · rename_i c rest hidle
      exact .inr ⟨i, c, 0, rfl, (idleCount_pop hidle).trans hclosed⟩
    · obtain hdone | ⟨j, c, drained, hwaits, hcount⟩ := ih (p :=
        (p.modifyShard i fun s => { s with closed := true }).note (.shardClosed
          ((p.modifyShard i fun s => { s with closed := true }).shard i).address 0))
      · exact .inl hdone
      · exact .inr ⟨j, c, drained, hwaits, hcount.trans hclosed⟩

private theorem closes_closeOn (i drained : Nat) : p.Closes (p.closeOn i drained) := by
  unfold closeOn
  split
  · rename_i c rest hidle
    exact .inr ⟨i, c, drained, rfl, idleCount_pop hidle⟩
  · exact closes_closeLast (p := p.note _) _

variable {id : TaskId} {s : Closing}

/-- A task at work on a shutdown is answered, or has one connection less to close. -/
theorem resume_closing (hwf : p.WellFormed) (ht : p.task? id = some (.shutdown s))
    (hcloses : p.Closes (p.resumeShutdown s reply)) :
    (p.resume id reply).2 = some .shutDown ∨ (p.resume id reply).2 = none ∧
      ∃ i c drained, (p.resume id reply).1.task? id = some (.shutdown (.draining i c drained)) ∧
        (p.resume id reply).1.idleCount + 1 = p.idleCount := by
  rcases hr : p.resumeShutdown s reply with ⟨q, s' | _⟩ <;> rw [hr] at hcloses
  · obtain hdone | ⟨i, c, drained, hwaits, hcount⟩ := hcloses
    · cases hdone
    obtain rfl := Progress.waits.inj hwaits
    have hadvance : p.advance (.shutdown s) reply =
        (q, .waits (.shutdown (.draining i c drained))) := by
      simp [advance, hr, Progress.map]
    refine .inr ⟨by simp only [resume, ht, hadvance], i, c, drained,
      task?_resume hwf ht (congrArg Prod.snd hadvance), ?_⟩
    rw [idleCount, shards_resume ht, hadvance]
    exact hcount
  · have hadvance : p.advance (.shutdown s) reply = (q, .done .shutDown) := by
      simp [advance, hr, Progress.map]
    exact .inl (by simp only [resume, ht, hadvance])

theorem closes_draining (p : Pool) (i : Nat) (c : ConnId) (drained : Nat) (reply : Reply) :
    p.Closes (p.resumeShutdown (.draining i c drained) reply) := by
  have hcount := idleCount_noteIdleClose p i reply
  obtain hdone | ⟨j, d, drained', hwaits, hclose⟩ :=
    closes_closeOn (p := p.noteIdleClose i reply) i (drained + 1)
  · exact .inl hdone
  · exact .inr ⟨j, d, drained', hwaits, hclose.trans hcount⟩

/-- A task that waits for the factory takes its next step with the reply, and goes on unless that
is its last. -/
theorem carry_of_call (serve : Service σ) (s : σ) (fuel : Nat) {call : Call}
    (hcall : p.call? id = some call) : carry serve id (fuel + 1) s p =
      match (p.resume id (serve s call).2).2 with
      | some a => ((serve s call).1, (p.resume id (serve s call).2).1, some a)
      | none => carry serve id fuel (serve s call).1 (p.resume id (serve s call).2).1 := by
  rw [carry, hcall]
  dsimp only
  rcases p.resume id (serve s call).2 with ⟨q, a | _⟩ <;> rfl

/-- A task that can have its turn takes its next step, and goes on unless that is its last. -/
theorem carry_of_ready (serve : Service σ) (s : σ) (fuel : Nat) (hcall : p.call? id = none)
    (hready : p.taskReady id = true) : carry serve id (fuel + 1) s p =
      match (p.resume id (.ok ())).2 with
      | some a => (s, (p.resume id (.ok ())).1, some a)
      | none => carry serve id fuel s (p.resume id (.ok ())).1 := by
  rw [carry, hcall]
  dsimp only
  rw [if_pos hready]
  rcases p.resume id (.ok ()) with ⟨q, a | _⟩ <;> rfl

/-- A task that cannot have its turn yet lets the health checker go on. -/
theorem carry_of_not_ready (serve : Service σ) (s : σ) (fuel : Nat) (hcall : p.call? id = none)
    (hready : p.taskReady id = false) : carry serve id (fuel + 1) s p =
      carry serve id fuel (settle serve p.checkerEffort s p).1
        (settle serve p.checkerEffort s p).2 := by
  rw [carry, hcall]
  dsimp only
  rw [if_neg (by simp [hready])]

theorem call?_of_joining (ht : p.task? id = some (.shutdown .joining)) : p.call? id = none := by
  simp only [call?, ht, Option.bind_some, Task.call?]

theorem taskReady_of_joining (ht : p.task? id = some (.shutdown .joining)) :
    p.taskReady id = decide (p.checker = .stopped) := by
  simp only [taskReady, ht]

/-- A shutdown that closes the shards is answered if its effort exceeds the idle connections. -/
theorem carry_draining (serve : Service σ) {fuel : Nat} (s : σ) (hwf : p.WellFormed)
    {drained : Nat} (ht : p.task? id = some (.shutdown (.draining i c drained)))
    (hfuel : p.idleCount < fuel) : (carry serve id fuel s p).2.2 = some .shutDown := by
  induction fuel generalizing s p i c drained with
  | zero => cases hfuel
  | succ fuel ih =>
    have hcall : p.call? id = some (.close (.own c)) := by
      simp only [call?, ht, Option.bind_some, Task.call?]
    rw [carry_of_call serve s fuel hcall]
    obtain hanswer | ⟨hnone, j, d, drained', ht', hcount⟩ :=
      resume_closing hwf ht (closes_draining p i c drained (serve s (.close (.own c))).2)
    · rw [hanswer]
    · rw [hnone]
      exact ih _ (hwf.resume id _) ht' (by omega)

/-- The step of a shutdown for which the health checker has stopped. -/
theorem resume_joined (hwf : p.WellFormed) (ht : p.task? id = some (.shutdown .joining))
    (hstopped : p.checker = .stopped) :
    (p.resume id reply).2 = some .shutDown ∨ (p.resume id reply).2 = none ∧
      ∃ i c drained, (p.resume id reply).1.task? id = some (.shutdown (.draining i c drained)) ∧
        (p.resume id reply).1.idleCount + 1 = p.idleCount := by
  refine resume_closing hwf ht ?_
  simp only [resumeShutdown, if_pos hstopped]
  exact closes_closeLast _

/-- A shutdown that has waited for the health checker to stop is answered. -/
theorem carry_joined (serve : Service σ) {fuel : Nat} (s : σ) (hwf : p.WellFormed)
    (ht : p.task? id = some (.shutdown .joining)) (hstopped : p.checker = .stopped)
    (hfuel : p.idleCount < fuel) : (carry serve id fuel s p).2.2 = some .shutDown := by
  obtain ⟨fuel, rfl⟩ := Nat.exists_eq_add_one_of_ne_zero (Nat.ne_zero_of_lt hfuel)
  have hready : p.taskReady id = true := by rw [taskReady_of_joining ht, hstopped]; rfl
  rw [carry_of_ready serve s fuel (call?_of_joining ht) hready]
  obtain hanswer | ⟨hnone, i, c, drained, ht', hcount⟩ := resume_joined hwf ht hstopped
  · rw [hanswer]
  · rw [hnone]
    exact carry_draining serve s (hwf.resume id _) ht' (by omega)

theorem tasksKept_settle (serve : Service σ) (fuel : Nat) (s : σ) (hwf : p.WellFormed) :
    p.TasksKept (settle serve fuel s p).2 := by
  induction fuel generalizing s p with
  | zero => exact ⟨rfl, rfl⟩
  | succ fuel ih =>
    have hstep : p.TasksKept (stepChecker serve s p).2 ∧ (stepChecker serve s p).2.WellFormed := by
      unfold stepChecker
      split
      · exact ⟨tasksKept_resumeChecker hwf _, hwf.act (.resumeChecker _)⟩
      · exact ⟨tasksKept_turn hwf, hwf.act .turn⟩
    unfold settle
    split
    · obtain ⟨⟨htasks, hnext⟩, hwf'⟩ := hstep
      obtain ⟨htasks', hnext'⟩ := ih (stepChecker serve s p).1 hwf'
      exact ⟨htasks'.trans htasks, hnext'.trans hnext⟩
    · exact ⟨rfl, rfl⟩

theorem task?_settle (serve : Service σ) (fuel : Nat) (s : σ) (hwf : p.WellFormed) :
    (settle serve fuel s p).2.task? id = p.task? id := by
  rw [task?, (tasksKept_settle serve fuel s hwf).1, task?]

/-- A shutdown waits for the health checker, which was told to stop, and is then answered. -/
theorem carry_joining (serve : Service σ) {fuel : Nat} (s : σ) (hp : p.Reached)
    (ht : p.task? id = some (.shutdown .joining)) (hstopping : p.stopping = true)
    (hfuel : p.idleCount + 1 < fuel) : (carry serve id fuel s p).2.2 = some .shutDown := by
  by_cases hstopped : p.checker = .stopped
  · exact carry_joined serve s hp.wellFormed ht hstopped (by omega)
  obtain ⟨fuel, rfl⟩ := Nat.exists_eq_add_one_of_ne_zero (Nat.ne_zero_of_lt hfuel)
  have hready : p.taskReady id = false := by
    rw [taskReady_of_joining ht, decide_eq_false hstopped]
  obtain ⟨hstops, hidle⟩ := settle_stops serve s hstopping p.left_le_checkerEffort
  rw [carry_of_not_ready serve s fuel (call?_of_joining ht) hready]
  exact carry_joined serve _ (hp.settle serve _ s).wellFormed
    ((task?_settle serve _ s hp.wellFormed).trans ht) hstops (by omega)

/-- The first shutdown of an open pool waits for the health checker, and tells it to stop. -/
theorem Reached.start_shutdown (hp : p.Reached) (hopen : p.closed = false) :
    p.start .shutdown = (
      { p with
        closed := true
        stopping := true
        tasks := p.tasks ++ [(p.nextTask, .shutdown .joining)]
        nextTask := p.nextTask + 1 },
      .waits p.nextTask) := by
  have hnone : ∀ x ∈ p.tasks, ∀ s, x.2 ≠ .shutdown s := by
    rintro ⟨id, t⟩ hmem s rfl
    have hclosed := hp.closed_of_mem hmem
    simp [hopen] at hclosed
  have hunder : p.shutdownUnderWay = false := by
    refine List.any_eq_false.mpr fun x hx => ?_
    obtain ⟨id, t⟩ := x
    cases t with
    | shutdown s => exact absurd rfl (hnone _ hx s)
    | _ => simp
  have hqueued : p.shutdownQueued = false :=
    List.any_eq_false.mpr fun x hx => by simpa using hnone x hx .queued
  have hbegin : p.begin .shutdown =
      ({ p with closed := true, stopping := true }, .waits (.shutdown .joining)) := by
    simp [begin, shutdown, hunder, hqueued, enterShutdown, hopen, Progress.map]
  unfold start
  rw [hbegin]
  rfl

/-- The task that the first shutdown of an open pool becomes. -/
theorem Reached.task?_start_shutdown (hp : p.Reached) (hopen : p.closed = false) :
    (p.start .shutdown).1.task? p.nextTask = some (.shutdown .joining) := by
  have hwf : (p.start .shutdown).1.WellFormed := hp.wellFormed.act (.start .shutdown)
  refine hwf.task?_eq_some_iff.mpr ?_
  rw [hp.start_shutdown hopen]
  exact List.mem_append_right _ (List.mem_singleton.mpr rfl)

/-- A shutdown of an open pool with nobody else around shuts it down. -/
theorem Reached.finished_of_shutdown (hp : p.Reached) (hopen : p.closed = false)
    (serve : Service σ) (s : σ) : (p.shutdownAlone serve s).2.Finished := by
  obtain ⟨as, hruns, hafter, hserves⟩ := exists_run_perform serve s p .shutdown
  have hanswer : (Pool.perform serve s p .shutdown).2.2 = some .shutDown := by
    have hq : (p.start .shutdown).1.Reached := hp.act (a := .start .shutdown) trivial
    have ht := hp.task?_start_shutdown hopen
    unfold Pool.perform
    rw [hp.start_shutdown hopen] at hq ht ⊢
    refine carry_joining serve s hq ht rfl ?_
    change p.idleCount + 1 < 2 * p.idleCount + p.maxRetry + 3 * p.config.healthCheckAttempts + 4
    omega
  obtain ⟨bs, b, rfl, hlast, -⟩ := (hserves _ hanswer).exists_last
  have hcourse : p.Course p.closers := hp.course_of_open hopen
  have hwf := hp.wellFormed
  have hsteps := steps_act (hwf.after bs) (hcourse.after hwf bs) b
  change (Pool.perform serve s p .shutdown).2.1.Finished
  rw [hafter, after_append]
  exact (hsteps.answered hlast).1

end Closing

section Unasked

variable {id : TaskId}

/-- A health checker that was told to stop, and is on no errand, asks nothing of the factory. -/
theorem fst_settle (serve : Service σ) (fuel : Nat) (s : σ) (hstopping : p.stopping = true)
    (hrests : p.checker.errand? = none) : (settle serve fuel s p).1 = s := by
  induction fuel generalizing p with
  | zero => rfl
  | succ fuel ih =>
    have hcall : p.checkerCall? = none := by
      unfold checkerCall?
      split
      · rename_i due e hchecker
        simp [hchecker, Checker.errand?] at hrests
      · rfl
    have hturn : p.turn.stopping = true ∧ p.turn.checker.errand? = none := by
      unfold turn
      split
      · exact ⟨hstopping, rfl⟩
      · rw [if_pos hstopping]
        exact ⟨hstopping, rfl⟩
      · rename_i due e hchecker
        simp [hchecker, Checker.errand?] at hrests
      · exact ⟨hstopping, hrests⟩
    unfold settle stepChecker
    rw [hcall]
    split
    · exact ih hturn.1 hturn.2
    · rfl

/-- A shutdown that has waited for the health checker to stop, and finds no idle connection, asks
nothing of the factory. -/
theorem fst_carry_joined (serve : Service σ) (fuel : Nat) (s : σ) (hwf : p.WellFormed)
    (ht : p.task? id = some (.shutdown .joining)) (hstopped : p.checker = .stopped)
    (hidle : p.idleCount = 0) : (carry serve id fuel s p).1 = s := by
  cases fuel with
  | zero => rfl
  | succ fuel =>
    have hready : p.taskReady id = true := by rw [taskReady_of_joining ht, hstopped]; rfl
    rw [carry_of_ready serve s fuel (call?_of_joining ht) hready]
    obtain hanswer | ⟨-, i, c, drained, -, hcount⟩ := resume_joined hwf ht hstopped
    · rw [hanswer]
    · omega

private theorem fst_carry_joining (serve : Service σ) (fuel : Nat) (s : σ) (hp : p.Reached)
    (ht : p.task? id = some (.shutdown .joining)) (hstopping : p.stopping = true)
    (hrests : p.checker.errand? = none) (hidle : p.idleCount = 0) :
    (carry serve id fuel s p).1 = s := by
  by_cases hstopped : p.checker = .stopped
  · exact fst_carry_joined serve fuel s hp.wellFormed ht hstopped hidle
  cases fuel with
  | zero => rfl
  | succ fuel =>
    have hready : p.taskReady id = false := by
      rw [taskReady_of_joining ht, decide_eq_false hstopped]
    obtain ⟨hstops, hfewer⟩ := settle_stops serve s hstopping p.left_le_checkerEffort
    rw [carry_of_not_ready serve s fuel (call?_of_joining ht) hready,
      fst_settle serve _ s hstopping hrests]
    exact fst_carry_joined serve fuel s (hp.settle serve _ s).wellFormed
      ((task?_settle serve _ s hp.wellFormed).trans ht) hstops (by omega)

/-- A shutdown of a pool that is open, has no idle connection and whose health checker is on no
errand asks nothing of the factory. -/
theorem Reached.fst_shutdownAlone (hp : p.Reached) (hopen : p.closed = false)
    (hidle : p.idleCount = 0) (hrests : p.checker.errand? = none) (serve : Service σ) (s : σ) :
    (p.shutdownAlone serve s).1 = s := by
  have hq : (p.start .shutdown).1.Reached := hp.act (a := .start .shutdown) trivial
  have ht := hp.task?_start_shutdown hopen
  change (Pool.perform serve s p .shutdown).1 = s
  unfold Pool.perform
  rw [hp.start_shutdown hopen] at hq ht ⊢
  exact fst_carry_joining serve _ s hq ht rfl hrests hidle

end Unasked

end QuorumPool.Pool
