import QuorumPool.Proofs.Alone
import QuorumPool.Proofs.Discipline

namespace QuorumPool

/-- What is left to do after a step, when a state of waiting leaves as much to do as given. -/
def Progress.left {σ α : Type} (f : σ → Nat) : Progress σ α → Nat
  | waits s => f s
  | done _ => 0

/-- The calls that a check may still wait for, when it may make as many attempts as given. -/
def Check.left (attempts : Nat) (c : Check) : Nat :=
  3 * (attempts - c.attempt) +
    match c.checking with
    | .dialing => 3
    | .validating => 2
    | .closing _ => 1

/-- The steps that an inspection may still take, apart from those for connections that it drains. -/
def Inspection.left (attempts : Nat) : Inspection → Nat
  | checking _ c => c.left attempts + 1
  | judging _ => 1

/-- The steps that an errand may still take in a pool of `n` shards. -/
def Errand.left (attempts n : Nat) : Errand → Nat
  | recheck s => s.left attempts
  | sweep s => s.left attempts + (n - (s.shard + 1)) * (3 * attempts + 2)

/-- The steps that the health checker may still take before it stops, once it was told to. -/
def Checker.left (attempts n : Nat) : Checker → Nat
  | spawned => 2
  | waiting _ => 1
  | working _ e => e.left attempts n + 1
  | stopped => 0

namespace Pool

/-- The steps that the health checker may still take before it stops, once it was told to, with
those for the connections that it may drain. -/
def left (p : Pool) : Nat :=
  p.checker.left p.config.healthCheckAttempts p.shards.length + p.idleCount

variable {p q : Pool} {i : Nat} {c : ConnId} {rest : List ConnId} {reply : Reply} {σ : Type}

section Idle

theorem idleCount_modifyShard {f : Shard → Shard} (hf : ∀ s, (f s).idle = s.idle) :
    (p.modifyShard i f).idleCount = p.idleCount := by
  unfold idleCount modifyShard
  dsimp only
  generalize p.shards = shards
  induction shards generalizing i with
  | nil => simp
  | cons s shards ih =>
    cases i with
    | zero => simp [hf]
    | succ i => simp [ih]

theorem idleCount_dropIdle (hidle : (p.shard i).idle = c :: rest) :
    (p.dropIdle i).idleCount + 1 = p.idleCount := by
  have hi : i < p.shards.length := by
    by_contra hi
    rw [shard_of_length_le (Nat.le_of_not_lt hi)] at hidle
    cases hidle
  rw [shard_eq_getElem hi] at hidle
  unfold idleCount dropIdle modifyShard
  dsimp only
  generalize p.shards = shards at hi hidle
  induction shards generalizing i with
  | nil => cases hi
  | cons s shards ih =>
    cases i with
    | zero =>
      have hs : s.idle = c :: rest := hidle
      simp [hs]
      omega
    | succ i =>
      have hrest := ih (Nat.lt_of_succ_lt_succ hi) hidle
      simp only [List.modify_succ_cons, List.foldr_cons]
      omega

theorem idleCount_pop (hidle : (p.shard i).idle = c :: rest) :
    ((p.dropIdle i).count i Tally.countClose).idleCount + 1 = p.idleCount := by
  have hcount : ((p.dropIdle i).count i Tally.countClose).idleCount = (p.dropIdle i).idleCount :=
    idleCount_modifyShard fun _ => rfl
  rw [hcount]
  exact idleCount_dropIdle hidle

theorem idleCount_noteIdleClose (p : Pool) (i : Nat) (reply : Reply) :
    (p.noteIdleClose i reply).idleCount = p.idleCount := by
  cases reply <;> rfl

end Idle

section Checker

/-- A drain takes one step for each connection that it closes. -/
theorem left_drain (p : Pool) (i drained : Nat) :
    (p.drain i drained).2.left (fun _ => 1) + (p.drain i drained).1.idleCount ≤ p.idleCount := by
  unfold drain
  dsimp only
  split
  · rename_i c rest hidle
    have hpop := idleCount_pop hidle
    simp only [Progress.left]
    omega
  · exact Nat.le_of_eq (Nat.zero_add _)

theorem left_resumeVerdict (p : Pool) (v : Verdict) (reply : Reply) :
    (p.resumeVerdict v reply).2.left (fun _ => 1) + (p.resumeVerdict v reply).1.idleCount ≤
      p.idleCount := by
  cases v with
  | deciding i healthy =>
    cases healthy with
    | true =>
      simp only [resumeVerdict, promote]
      split
      · exact Nat.le_of_eq (Nat.zero_add _)
      · have hidle := idleCount_modifyShard (p := { p with numAvailable := p.numAvailable + 1 })
          (i := i) (f := fun s => { s with available := true }) fun _ => rfl
        exact Nat.le_of_eq ((Nat.zero_add _).trans hidle)
    | false =>
      simp only [resumeVerdict, demote]
      split
      · exact Nat.le_of_eq (Nat.zero_add _)
      split
      · exact Nat.le_of_eq (Nat.zero_add _)
      · have hidle := idleCount_modifyShard (p := { p with numAvailable := p.numAvailable - 1 })
          (i := i) (f := fun s => { s with available := false }) fun _ => rfl
        exact Nat.le_trans (left_drain _ i 0) (Nat.le_of_eq hidle)
  | draining i c drained =>
    exact Nat.le_trans (left_drain _ i _) (Nat.le_of_eq (idleCount_noteIdleClose p i reply))

theorem left_nextAttempt (p : Pool) (address : String) (attempt : Nat) :
    (p.nextAttempt address attempt).left (Check.left p.config.healthCheckAttempts) ≤
      3 * (p.config.healthCheckAttempts - attempt) := by
  unfold nextAttempt
  split
  · simp only [Progress.left, Check.left]
    omega
  · exact Nat.zero_le _

/-- A check goes on to its next call, or to an attempt less. -/
theorem left_resumeCheck (p : Pool) (c : Check) (reply : Reply) :
    (p.resumeCheck c reply).2.left (Check.left p.config.healthCheckAttempts) <
      c.left p.config.healthCheckAttempts := by
  obtain ⟨address, attempt, checking⟩ := c
  have hnext := left_nextAttempt p address attempt
  unfold resumeCheck
  cases checking with
  | dialing =>
    cases reply with
    | ok _ => simp [Progress.left, Check.left]
    | error e =>
      simp only [Check.left]
      omega
  | validating => cases reply <;> simp [Progress.left, Check.left]
  | closing failure =>
    cases failure with
    | none => simp [Progress.left, Check.left]
    | some e => cases reply <;> exact Nat.lt_succ_of_le hnext

theorem idleCount_resumeCheck (p : Pool) (c : Check) (reply : Reply) :
    (p.resumeCheck c reply).1.idleCount = p.idleCount := by
  obtain ⟨journal, hcheck⟩ := exists_resumeCheck_eq p c reply
  rw [hcheck]
  rfl

theorem left_resumeInspection (p : Pool) (s : Inspection) (reply : Reply) :
    (p.resumeInspection s reply).2.left (Inspection.left p.config.healthCheckAttempts) +
        (p.resumeInspection s reply).1.idleCount <
      s.left p.config.healthCheckAttempts + p.idleCount := by
  cases s with
  | checking i c =>
    have hcheck := left_resumeCheck p c reply
    have hidle := idleCount_resumeCheck p c reply
    unfold resumeInspection
    dsimp only
    rcases heq : p.resumeCheck c reply with ⟨q, c' | healthy⟩ <;> rw [heq] at hcheck hidle <;>
      simp only [Progress.left, Inspection.left] at hcheck hidle ⊢ <;> omega
  | judging v =>
    have hverdict := left_resumeVerdict p v reply
    unfold resumeInspection
    dsimp only
    split <;> rename_i heq <;> rw [heq] at hverdict <;>
      simp only [Progress.left, Inspection.left] at hverdict ⊢ <;> omega

private theorem left_inspect (p : Pool) (i : Nat) :
    (p.inspect i).left p.config.healthCheckAttempts ≤ 3 * p.config.healthCheckAttempts + 1 := by
  have hnext := left_nextAttempt p (p.shard i).address 0
  unfold inspect check
  split <;> rename_i heq
  · rw [heq] at hnext
    exact Nat.succ_le_succ hnext
  · simp [Inspection.left]

/-- A sweep over the shards from number `i` on inspects each of them once at most. -/
theorem left_sweepFrom (p : Pool) (i : Nat) :
    (p.sweepFrom i).left (Errand.left p.config.healthCheckAttempts p.shards.length) ≤
      (p.shards.length - i) * (3 * p.config.healthCheckAttempts + 2) := by
  cases hsweep : p.sweepFrom i with
  | done _ => exact Nat.zero_le _
  | waits e =>
    have hlt := shard_lt_of_sweepFrom hsweep
    obtain hdone | ⟨s, hs, hle⟩ := sweepFrom_eq p i
    · cases hsweep.symm.trans hdone
    obtain rfl : e = .sweep s := Progress.waits.inj (hsweep.symm.trans hs)
    have hleft : s.left p.config.healthCheckAttempts ≤ 3 * p.config.healthCheckAttempts + 1 := by
      unfold sweepFrom at hs
      split at hs
      · cases hs
        exact left_inspect p _
      · cases hs
    -- The shard that is inspected comes off those that the sweep has before it.
    have hrest : p.shards.length - i ≥ p.shards.length - (s.shard + 1) + 1 := by
      simp only [Errand.inspection] at hlt
      omega
    simp only [Progress.left, Errand.left]
    calc s.left p.config.healthCheckAttempts +
          (p.shards.length - (s.shard + 1)) * (3 * p.config.healthCheckAttempts + 2)
        ≤ (p.shards.length - (s.shard + 1) + 1) * (3 * p.config.healthCheckAttempts + 2) := by
          rw [Nat.add_mul, Nat.one_mul]
          omega
      _ ≤ _ := Nat.mul_le_mul_right _ hrest

theorem left_resumeErrand (p : Pool) (e : Errand) (reply : Reply) :
    (p.resumeErrand e reply).2.left (Errand.left p.config.healthCheckAttempts p.shards.length) +
        (p.resumeErrand e reply).1.idleCount <
      e.left p.config.healthCheckAttempts p.shards.length + p.idleCount := by
  have hinspection := left_resumeInspection p e.inspection reply
  have hdoes := Does.resumeInspection p e.inspection reply
  have hshard (s : Inspection) :
      (p.resumeInspection e.inspection reply).2 = .waits s → s.shard = e.inspection.shard :=
    shard_eq_of_resumeInspection
  unfold resumeErrand
  rcases heq : p.resumeInspection e.inspection reply with ⟨q, s | _⟩ <;>
    rw [heq] at hinspection hdoes hshard <;> cases e with
    | recheck s' =>
      simp only [Progress.left, Errand.left, Errand.inspection] at hinspection ⊢
      exact hinspection
    | sweep s' => ?_
  · simp only [Progress.left, Errand.left, Errand.inspection] at hinspection ⊢
    rw [show s.shard = s'.shard from hshard s rfl]
    omega
  -- The inspection is over, and its last step pays for what the sweep takes up next.
  · have hsweep := left_sweepFrom q (s'.shard + 1)
    rw [hdoes.config, hdoes.length] at hsweep
    simp only [Progress.left, Errand.inspection] at hinspection
    change Progress.left (Errand.left p.config.healthCheckAttempts p.shards.length)
      (q.sweepFrom (s'.shard + 1)) + q.idleCount < s'.left p.config.healthCheckAttempts +
        (p.shards.length - (s'.shard + 1)) * (3 * p.config.healthCheckAttempts + 2) + p.idleCount
    omega

private theorem idleCount_resumeErrand_le (p : Pool) (e : Errand) (reply : Reply) :
    (p.resumeErrand e reply).1.idleCount ≤ p.idleCount := by
  rw [fst_resumeErrand]
  cases e.inspection with
  | checking i c =>
    rw [fst_resumeInspection_checking]
    exact Nat.le_of_eq (idleCount_resumeCheck p c reply)
  | judging v =>
    rw [fst_resumeInspection_judging]
    exact Nat.le_trans (Nat.le_add_left _ _) (left_resumeVerdict p v reply)

/-- With an errand at its end, the health checker has one step left before it stops. -/
theorem left_setErrand (p : Pool) (due : Duration) (w : Progress Errand Unit) :
    (p.setErrand due w).left =
      w.left (Errand.left p.config.healthCheckAttempts p.shards.length) + 1 + p.idleCount := by
  obtain ⟨journal, heq⟩ := exists_setErrand_eq p due w
  rw [heq]
  cases w with
  | waits e => rfl
  | done _ => simp [left, Checker.standing, Checker.left, Progress.left, idleCount]

/-- What a step of a health checker that was told to stop comes to. -/
structure Nears (p q : Pool) : Prop where
  left : q.left < p.left
  idle : q.idleCount ≤ p.idleCount
  stopping : q.stopping = true

theorem nears_resumeErrand (hstopping : p.stopping = true) {due : Duration} {e : Errand}
    (hchecker : p.checker = .working due e) (reply : Reply) :
    p.Nears ((p.resumeErrand e reply).1.setErrand due (p.resumeErrand e reply).2) := by
  have herrand := left_resumeErrand p e reply
  have hidle := idleCount_resumeErrand_le p e reply
  have hdoes := Does.resumeErrand p e reply
  generalize p.resumeErrand e reply = r at herrand hidle hdoes
  obtain ⟨journal, heq⟩ := exists_setErrand_eq r.1 due r.2
  have hleft := left_setErrand r.1 due r.2
  rw [hdoes.config, hdoes.length] at hleft
  refine ⟨?_, ?_, ?_⟩
  · rw [hleft, Pool.left, hchecker, Checker.left]
    omega
  · rw [heq]
    exact hidle
  · rw [heq]
    exact hdoes.stopping hstopping

/-- A step of a health checker that was told to stop brings it nearer to that. -/
theorem nears_stepChecker (serve : Service σ) (s : σ) (hstopping : p.stopping = true)
    (hgoes : p.checker ≠ .stopped) : p.Nears (stepChecker serve s p).2 := by
  unfold stepChecker checkerCall?
  cases hchecker : p.checker with
  | spawned =>
    simp only [turn, hchecker]
    refine ⟨?_, Nat.le_refl _, hstopping⟩
    have hleft : p.left = 2 + p.idleCount := by rw [left, hchecker, Checker.left]
    change 1 + p.idleCount < p.left
    omega
  | waiting due =>
    simp only [turn, hchecker, if_pos hstopping]
    refine ⟨?_, Nat.le_refl _, hstopping⟩
    have hleft : p.left = 1 + p.idleCount := by rw [left, hchecker, Checker.left]
    change 0 + p.idleCount < p.left
    omega
  | working due e =>
    cases hcall : e.inspection.call? with
    | some call =>
      simp only [resumeChecker, hchecker, hcall]
      exact nears_resumeErrand hstopping hchecker _
    | none =>
      simp only [turn, hchecker, hcall]
      exact nears_resumeErrand hstopping hchecker _
  | stopped => exact absurd hchecker hgoes

/-- A health checker that was told to stop goes on until it has stopped. -/
theorem goes_of_stopping (hstopping : p.stopping = true) :
    (p.checkerReady || p.checkerCall?.isSome) = true ↔ p.checker ≠ .stopped := by
  unfold checkerReady checkerCall?
  cases p.checker with
  | working due e => cases hcall : e.inspection.call? <;> simp [hcall]
  | _ => simp [hstopping]

/-- A health checker that was told to stop has stopped by the time that it waits. -/
theorem settle_stops (serve : Service σ) {fuel : Nat} (s : σ) (hstopping : p.stopping = true)
    (hfuel : p.left ≤ fuel) : (settle serve fuel s p).2.checker = .stopped ∧
      (settle serve fuel s p).2.idleCount ≤ p.idleCount := by
  induction fuel generalizing s p with
  | zero =>
    refine ⟨?_, Nat.le_refl _⟩
    have hleft : p.checker.left p.config.healthCheckAttempts p.shards.length = 0 :=
      Nat.eq_zero_of_add_eq_zero_right (Nat.le_zero.mp hfuel)
    change p.checker = .stopped
    cases hchecker : p.checker with
    | stopped => rfl
    | _ => simp [hchecker, Checker.left] at hleft
  | succ fuel ih =>
    unfold settle
    split
    · rename_i hgoes
      have hnears := nears_stepChecker serve s hstopping ((goes_of_stopping hstopping).mp hgoes)
      obtain ⟨hstopped, hidle⟩ := ih (stepChecker serve s p).1 hnears.stopping
        (Nat.le_of_lt_succ (Nat.lt_of_lt_of_le hnears.left hfuel))
      exact ⟨hstopped, Nat.le_trans hidle hnears.idle⟩
    · rename_i hrests
      refine ⟨?_, Nat.le_refl _⟩
      by_contra hgoes
      exact hrests ((goes_of_stopping hstopping).mpr hgoes)

private theorem left_inspection_le (attempts : Nat) (s : Inspection) :
    s.left attempts ≤ 3 * attempts + 4 := by
  cases s with
  | checking i c =>
    simp only [Inspection.left, Check.left]
    split <;> omega
  | judging v => exact Nat.le_add_left 1 _

private theorem left_checker_le (attempts n : Nat) (c : Checker) :
    c.left attempts n ≤ (n + 2) * (3 * attempts + 4) := by
  have hsplit : (n + 2) * (3 * attempts + 4) =
      n * (3 * attempts + 4) + (3 * attempts + 4) + (3 * attempts + 4) := by
    rw [Nat.add_mul]
    omega
  have herrand (e : Errand) : e.left attempts n ≤ n * (3 * attempts + 4) + (3 * attempts + 4) := by
    cases e with
    | recheck s => exact Nat.le_add_left_of_le (left_inspection_le attempts s)
    | sweep s =>
      have hrest : (n - (s.shard + 1)) * (3 * attempts + 2) ≤ n * (3 * attempts + 4) :=
        Nat.mul_le_mul (Nat.sub_le _ _) (by omega)
      have hinspection := left_inspection_le attempts s
      simp only [Errand.left]
      omega
  cases c with
  | working due e =>
    have hwork := herrand e
    simp only [Checker.left]
    omega
  | _ =>
    simp only [Checker.left]
    omega

/-- The effort that is allowed for the health checker is enough for it to stop. -/
theorem left_le_checkerEffort (p : Pool) : p.left ≤ p.checkerEffort := by
  have hchecker := left_checker_le p.config.healthCheckAttempts p.shards.length p.checker
  have hidle : p.idleCount ≤ (p.shards.length + 2) * p.idleCount :=
    Nat.le_mul_of_pos_left _ (Nat.succ_pos _)
  calc p.left
      ≤ (p.shards.length + 2) * (3 * p.config.healthCheckAttempts + 4 + p.idleCount) := by
        rw [Nat.mul_add]
        exact Nat.add_le_add hchecker hidle
    _ ≤ p.checkerEffort := Nat.mul_le_mul (by omega) (by unfold effort; omega)

end Checker

end Pool

end QuorumPool
