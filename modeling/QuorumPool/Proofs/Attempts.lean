import QuorumPool.Proofs.Activity
import QuorumPool.Proofs.Solo

namespace QuorumPool

/-- How an attempt of a check would go: how long the factory takes over each call, and what it
replies. Only a connection that was dialed is validated and closed. -/
structure Attempt where
  dial : Duration × Reply
  validation : Duration × Reply
  close : Duration × Reply

namespace Attempt

/-- Whether a connection is dialed and is valid. -/
def passes (a : Attempt) : Bool := a.dial.2.isOk && a.validation.2.isOk

/-- What passes between the pool and the factory in an attempt that is made at the time `now`. -/
def exchanges (address : String) (now : Duration) (a : Attempt) : List Exchange :=
  let dialed := now + a.dial.1
  let validated := dialed + a.validation.1
  ⟨.probe address, dialed, a.dial.2⟩ ::
    if a.dial.2.isOk then
      [⟨.validate .probe, validated, a.validation.2⟩,
        ⟨.close .probe, validated + a.close.1, a.close.2⟩]
    else []

/-- When an attempt is over that is made at the time `now`. -/
def finish (now : Duration) (a : Attempt) : Duration :=
  if a.dial.2.isOk then now + a.dial.1 + a.validation.1 + a.close.1 else now + a.dial.1

/-- What passes between the pool and the factory in attempts made one after the other. -/
def exchangesOf (address : String) : (now : Duration) → List Attempt → List Exchange
  | _, [] => []
  | now, a :: as => a.exchanges address now ++ exchangesOf address (a.finish now) as

/-- The attempts up to the first that passes. -/
def made : List Attempt → List Attempt
  | [] => []
  | a :: as => if a.passes then [a] else a :: made as

/-- Attempts are made, of `left` at most, until one passes. -/
inductive Tried : (left : Nat) → List Attempt → (healthy : Bool) → Prop
  | exhausted : Tried 0 [] false
  | failed {left a as healthy} (hfails : a.passes = false) (hrest : Tried left as healthy) :
      Tried (left + 1) (a :: as) healthy
  | passed {left a} (hpasses : a.passes = true) : Tried (left + 1) [a] true

variable {left : Nat} {as plan : List Attempt} {healthy : Bool}

theorem tried_made (plan : List Attempt) : Tried plan.length (made plan) (plan.any passes) := by
  induction plan with
  | nil => exact .exhausted
  | cons a plan ih =>
    rw [made, List.any_cons]
    cases hpasses : a.passes with
    | false => exact .failed hpasses ih
    | true => exact .passed hpasses

theorem Tried.length_le (htried : Tried left as healthy) : as.length ≤ left := by
  induction htried with
  | exhausted => exact Nat.le_refl 0
  | failed _ _ ih => exact Nat.succ_le_succ ih
  | passed => exact Nat.succ_le_succ (Nat.zero_le _)

theorem Tried.length_eq (htried : Tried left as false) : as.length = left := by
  generalize hhealthy : false = healthy at htried
  induction htried with
  | exhausted => rfl
  | failed _ _ ih => exact congrArg (· + 1) (ih hhealthy)
  | passed => cases hhealthy

theorem Tried.any_eq (htried : Tried left as healthy) : as.any passes = healthy := by
  induction htried with
  | exhausted => rfl
  | failed hfails _ ih => rw [List.any_cons, hfails, ih, Bool.false_or]
  | passed hpasses => rw [List.any_cons, hpasses, Bool.true_or]

/-- No attempt is made after one that passes. -/
theorem Tried.not_passes (htried : Tried left as healthy) : ∀ a ∈ as.dropLast, a.passes = false := by
  induction htried with
  | exhausted => exact fun _ ha => nomatch ha
  | @failed left a as healthy hfails hrest ih =>
    cases as with
    | nil => exact fun _ ha => nomatch ha
    | cons b as =>
      rw [List.dropLast_cons_of_ne_nil (List.cons_ne_nil b as), List.forall_mem_cons]
      exact ⟨hfails, ih⟩
  | passed => exact fun _ ha => nomatch ha

/-- Each attempt dials once. -/
theorem countP_probe_exchangesOf (address : String) (now : Duration) (as : List Attempt) :
    (exchangesOf address now as).countP (·.call = .probe address) = as.length := by
  induction as generalizing now with
  | nil => rfl
  | cons a as ih =>
    rw [exchangesOf, List.countP_append, ih, List.length_cons, Nat.add_comm]
    congr 1
    unfold exchanges
    dsimp only
    split <;> simp

end Attempt

theorem Activity.ends_cons_iff {σ α : Type} {act : Activity σ α} {p q : Pool} {s : σ} {a : α}
    {x : Exchange} {xs : List Exchange} : act.Ends (p, .waits s) (x :: xs) q a ↔
      x.call = act.call p s ∧ p.now ≤ x.time ∧
        act.Ends (act.resume (p.setTime x.time) s x.reply) xs q a := by
  rw [ends_waits_iff]
  constructor
  · rintro ⟨_, _, heq, hrest⟩
    cases heq
    exact hrest
  · exact fun hrest => ⟨x, xs, rfl, hrest⟩

private theorem Duration.le_add (now d : Duration) : now ≤ now + d := Nat.le_add_right _ _

private theorem Duration.add_sub_of_le {now later : Duration} (hle : now ≤ later) :
    now + (later - now) = later := congrArg Duration.mk (Nat.add_sub_of_le hle)

namespace Pool

private theorem now_resumeCheck (p : Pool) (c : Check) (reply : Reply) :
    (p.resumeCheck c reply).1.now = p.now := by
  obtain ⟨journal, heq⟩ := exists_resumeCheck_eq p c reply
  rw [heq]

/-- A health check of an address. -/
def checking : Activity Check Bool where
  call _ c := c.call
  resume p c reply := p.resumeCheck c reply
  now_resume := now_resumeCheck

variable {p q : Pool} {address : String} {attempt left : Nat} {healthy : Bool}
  {xs : List Exchange} {as : List Attempt}

/-- Validation has spoken, and the connection is closed whatever it said. -/
def closingAfter (verdict : Reply) : Checking :=
  .closing (match verdict with
    | .ok () => none
    | .error e => some e)

private theorem ends_dialed_iff {time : Duration} :
    checking.Ends (p, .waits ⟨address, attempt, .dialing⟩) (⟨.probe address, time, .ok ()⟩ :: xs) q
        healthy ↔
      p.now ≤ time ∧
        checking.Ends (p.setTime time, .waits ⟨address, attempt, .validating⟩) xs q healthy :=
  Activity.ends_cons_iff.trans ⟨fun h => h.2, fun h => ⟨rfl, h⟩⟩

theorem ends_validated_iff {time : Duration} {verdict : Reply} :
    checking.Ends (p, .waits ⟨address, attempt, .validating⟩)
        (⟨.validate .probe, time, verdict⟩ :: xs) q healthy ↔
      p.now ≤ time ∧
        checking.Ends (p.setTime time, .waits ⟨address, attempt, closingAfter verdict⟩) xs q
          healthy := by
  refine Activity.ends_cons_iff.trans ?_
  cases verdict <;> exact ⟨fun h => h.2, fun h => ⟨rfl, h⟩⟩

/-- What the factory says to the close is nothing to the check. -/
theorem exists_ends_closed_iff (p : Pool) (address : String) (attempt : Nat) (time : Duration)
    (verdict reply : Reply) : ∃ journal, ∀ xs q healthy,
      checking.Ends (p, .waits ⟨address, attempt, closingAfter verdict⟩)
          (⟨.close .probe, time, reply⟩ :: xs) q healthy ↔
        p.now ≤ time ∧ checking.Ends ({ p with now := time, journal },
          if verdict.isOk then .done true else p.nextAttempt address attempt) xs q healthy := by
  have hresume : ∃ journal, (p.setTime time).resumeCheck
      ⟨address, attempt, closingAfter verdict⟩ reply = ({ p with now := time, journal },
        if verdict.isOk then .done true else p.nextAttempt address attempt) := by
    cases verdict <;> cases reply <;> exact ⟨_, rfl⟩
  obtain ⟨journal, hresume⟩ := hresume
  refine ⟨journal, fun xs q healthy => ?_⟩
  rw [← hresume]
  exact Activity.ends_cons_iff.trans ⟨fun h => h.2, fun h => ⟨rfl, h⟩⟩

/-- A check that is about to dial makes an attempt. -/
theorem exists_attempt_of_ends
    (hends : checking.Ends (p, .waits ⟨address, attempt, .dialing⟩) xs q healthy) :
    ∃ (a : Attempt) (ys : List Exchange), xs = a.exchanges address p.now ++ ys := by
  obtain ⟨⟨_, dialed, dialReply⟩, xs, rfl, rfl, hdialed, hends⟩ := Activity.ends_waits_iff.mp hends
  have hdial := Duration.add_sub_of_le hdialed
  cases dialReply with
  | error e =>
    refine ⟨⟨⟨dialed - p.now, .error e⟩, ⟨.zero, .ok ()⟩, ⟨.zero, .ok ()⟩⟩, xs, ?_⟩
    simp only [Attempt.exchanges, hdial]
    rfl
  | ok =>
    obtain ⟨⟨_, validated, verdict⟩, xs, rfl, rfl, hvalidated, -⟩ :=
      Activity.ends_waits_iff.mp hends
    obtain ⟨-, hends⟩ := ends_validated_iff.mp hends
    obtain ⟨⟨_, closed, reply⟩, xs, rfl, rfl, hclosed, -⟩ := Activity.ends_waits_iff.mp hends
    have hvalidation : dialed + (validated - dialed) = validated :=
      Duration.add_sub_of_le hvalidated
    have hclose : validated + (closed - validated) = closed := Duration.add_sub_of_le hclosed
    refine ⟨⟨⟨dialed - p.now, .ok ()⟩, ⟨validated - dialed, verdict⟩, ⟨closed - validated, reply⟩⟩,
      xs, ?_⟩
    simp only [Attempt.exchanges, hdial, hvalidation, hclose]
    rfl

/-- An attempt that passes is the last, and any other is followed by the next. -/
theorem exists_ends_attempt_iff (p : Pool) (address : String) (attempt : Nat) (a : Attempt) :
    ∃ journal, ∀ ys q healthy,
      checking.Ends (p, .waits ⟨address, attempt, .dialing⟩) (a.exchanges address p.now ++ ys) q
          healthy ↔
        checking.Ends ({ p with now := a.finish p.now, journal },
          if a.passes then .done true else p.nextAttempt address attempt) ys q healthy := by
  obtain ⟨⟨dialing, dialReply⟩, ⟨validating, verdict⟩, ⟨closing, reply⟩⟩ := a
  cases dialReply with
  | error e =>
    refine ⟨.event (.probeDialFailed address attempt e) :: p.journal, fun ys q healthy => ?_⟩
    refine Activity.ends_cons_iff.trans ⟨fun h => h.2.2, fun h => ⟨rfl, ?_, h⟩⟩
    exact Duration.le_add _ _
  | ok =>
    obtain ⟨journal, hclosed⟩ := exists_ends_closed_iff
      ((p.setTime (p.now + dialing)).setTime (p.now + dialing + validating)) address attempt
      (p.now + dialing + validating + closing) verdict reply
    refine ⟨journal, fun ys q healthy => ?_⟩
    refine ends_dialed_iff.trans ⟨fun h => ?_, fun h => ⟨Duration.le_add _ _, ?_⟩⟩
    · exact ((hclosed ys q healthy).mp (ends_validated_iff.mp h.2).2).2
    · exact ends_validated_iff.mpr
        ⟨Duration.le_add _ _, (hclosed ys q healthy).mpr ⟨Duration.le_add _ _, h⟩⟩

theorem nextAttempt_zero (hleft : attempt + 0 = p.config.healthCheckAttempts) :
    p.nextAttempt address attempt = .done false := if_neg (by omega)

theorem nextAttempt_succ (hleft : attempt + (left + 1) = p.config.healthCheckAttempts) :
    p.nextAttempt address attempt = .waits ⟨address, attempt + 1, .dialing⟩ := if_pos (by omega)

/-- A check goes through the attempts until one passes. -/
theorem exists_ends_of_tried (htried : Attempt.Tried left as healthy)
    (hleft : attempt + left = p.config.healthCheckAttempts) :
    ∃ q, checking.Ends (p, p.nextAttempt address attempt) (Attempt.exchangesOf address p.now as) q
      healthy := by
  induction htried generalizing p attempt with
  | exhausted => exact ⟨p, nextAttempt_zero hleft ▸ .done p false⟩
  | @failed left a as healthy hfails hrest ih =>
    obtain ⟨journal, hattempt⟩ := exists_ends_attempt_iff p address (attempt + 1) a
    have hnext : attempt + 1 + left = p.config.healthCheckAttempts := by omega
    obtain ⟨q, hends⟩ := ih (p := { p with now := a.finish p.now, journal }) hnext
    refine ⟨q, ?_⟩
    rw [nextAttempt_succ hleft]
    refine (hattempt _ q healthy).mpr ?_
    rwa [hfails, if_neg Bool.false_ne_true]
  | @passed left a hpasses =>
    obtain ⟨journal, hattempt⟩ := exists_ends_attempt_iff p address (attempt + 1) a
    refine ⟨{ p with now := a.finish p.now, journal }, ?_⟩
    rw [nextAttempt_succ hleft]
    refine (hattempt [] _ true).mpr ?_
    rw [hpasses, if_pos rfl]
    exact .done _ true

/-- A check has gone through attempts until one passed, and has left the pool alone. -/
theorem exists_tried_of_ends (hleft : attempt + left = p.config.healthCheckAttempts)
    (hends : checking.Ends (p, p.nextAttempt address attempt) xs q healthy) :
    ∃ as, Attempt.Tried left as healthy ∧ xs = Attempt.exchangesOf address p.now as ∧
      q = { p with now := q.now, journal := q.journal } := by
  induction left generalizing p attempt xs with
  | zero =>
    rw [nextAttempt_zero hleft] at hends
    obtain ⟨rfl, rfl, rfl⟩ := Activity.ends_done_iff.mp hends
    exact ⟨[], .exhausted, rfl, rfl⟩
  | succ left ih =>
    rw [nextAttempt_succ hleft] at hends
    obtain ⟨a, ys, rfl⟩ := exists_attempt_of_ends hends
    obtain ⟨journal, hattempt⟩ := exists_ends_attempt_iff p address (attempt + 1) a
    replace hends := (hattempt ys q healthy).mp hends
    cases hpasses : a.passes with
    | true =>
      rw [hpasses, if_pos rfl] at hends
      obtain ⟨rfl, rfl, rfl⟩ := Activity.ends_done_iff.mp hends
      exact ⟨[a], .passed hpasses, rfl, rfl⟩
    | false =>
      rw [hpasses, if_neg Bool.false_ne_true] at hends
      have hleft : attempt + 1 + left = p.config.healthCheckAttempts := by omega
      obtain ⟨as, htried, rfl, hq⟩ := ih (p := { p with now := a.finish p.now, journal }) hleft hends
      exact ⟨a :: as, .failed hpasses htried, rfl, hq⟩

theorem halts_nextAttempt (hleft : attempt + left = p.config.healthCheckAttempts) :
    checking.Halts (p, p.nextAttempt address attempt) := by
  induction left generalizing p attempt with
  | zero =>
    rw [nextAttempt_zero hleft]
    exact .done p false
  | succ left ih =>
    have hnext (r : Pool) (hr : r.config = p.config) :
        checking.Halts (r, r.nextAttempt address (attempt + 1)) := ih (by rw [hr]; omega)
    rw [nextAttempt_succ hleft]
    refine .waits fun dialed _ reply => ?_
    cases reply with
    | error e => exact hnext _ rfl
    | ok =>
      refine .waits fun validated _ verdict => ?_
      cases verdict with
      | ok => exact .waits fun closed _ reply => by cases reply <;> exact .done _ true
      | error e => exact .waits fun closed _ reply => by cases reply <;> exact hnext _ rfl

/-- A step of a check is the same whatever else has happened to the pool meanwhile. -/
theorem exists_resumeCheck_congr (hconfig : q.config = p.config) (c : Check) (reply : Reply) :
    ∃ journal, q.resumeCheck c reply = ({ q with journal }, (p.resumeCheck c reply).2) := by
  obtain ⟨address, attempt, checking⟩ := c
  have hnext : q.nextAttempt address attempt = p.nextAttempt address attempt := by
    rw [nextAttempt, nextAttempt, hconfig]
  obtain ⟨journal, hq⟩ := exists_resumeCheck_eq q ⟨address, attempt, checking⟩ reply
  refine ⟨journal, Prod.ext hq ?_⟩
  cases checking with
  | dialing =>
    cases reply with
    | ok => rfl
    | error e => exact hnext
  | validating => cases reply <;> rfl
  | closing failure =>
    cases failure with
    | none => cases reply <;> rfl
    | some e => cases reply <;> exact hnext

/-- How a check of the address has gone, with these exchanges, from one pool to the other. -/
structure Checked (p : Pool) (address : String) (xs : List Exchange) (q : Pool) (healthy : Bool)
    (as : List Attempt) : Prop where
  /-- Attempts were made one after the other, within the bound. -/
  exchanges : xs = Attempt.exchangesOf address p.now as
  length_le : as.length ≤ p.config.healthCheckAttempts
  /-- The check passes if and only if an attempt did. -/
  passes : healthy = true ↔ ∃ a ∈ as, a.passes = true
  /-- No attempt was made after one that passed. -/
  last : ∀ a ∈ as.dropLast, a.passes = false
  /-- A check that fails has dialed as often as it may. -/
  dials : healthy = false →
    xs.countP (·.call = .probe address) = p.config.healthCheckAttempts
  /-- The pool is what it was, but for the time and what is written down. -/
  pool : q = { p with now := q.now, journal := q.journal }

theorem exists_checked_of_ends (hends : checking.Ends (p, p.check address) xs q healthy) :
    ∃ as, p.Checked address xs q healthy as := by
  obtain ⟨as, htried, rfl, hpool⟩ := exists_tried_of_ends (Nat.zero_add _) hends
  refine ⟨as, rfl, htried.length_le, ?_, htried.not_passes, fun hfails => ?_, hpool⟩
  · rw [← htried.any_eq, List.any_eq_true]
  · subst hfails
    rw [Attempt.countP_probe_exchangesOf, htried.length_eq]

/-- A check of any address comes to an end on every factory. When it is known what the factory would
do in each attempt that the check may make, it makes the attempts up to the first that passes, and
passes if and only if there is one. In every attempt a connection that was dialed is validated and
then closed before anything else happens, whatever the factory says to either; and neither from
beginning to end nor in a single step among those of others does the check change a shard. -/
theorem check_spec (p : Pool) (address : String) :
    (∀ f : Factory, ∃ xs q healthy,
      checking.Ends (p, p.check address) xs q healthy ∧ f.Makes [] p.now xs) ∧
    (∀ plan : List Attempt, plan.length = p.config.healthCheckAttempts → ∃ q,
      checking.Ends (p, p.check address)
        (Attempt.exchangesOf address p.now (Attempt.made plan)) q (plan.any Attempt.passes)) ∧
    (∀ xs q healthy, checking.Ends (p, p.check address) xs q healthy →
      ∃ as, p.Checked address xs q healthy as) ∧
    ∀ (r : Pool) c reply, r.config = p.config →
      ∃ journal, r.resumeCheck c reply = ({ r with journal }, (p.resumeCheck c reply).2) := by
  have hleft : 0 + p.config.healthCheckAttempts = p.config.healthCheckAttempts := Nat.zero_add _
  refine ⟨fun f => ?_, fun plan hlength => ?_, fun xs q healthy => exists_checked_of_ends,
    fun r c reply hconfig => exists_resumeCheck_congr hconfig c reply⟩
  · exact (halts_nextAttempt hleft).exists_ends f []
  · exact exists_ends_of_tried (Attempt.tried_made plan) (by rw [hlength, Nat.zero_add])

/-- A shard whose address is checked twice at most. -/
def checkedTwice : Pool where
  config := { healthCheckAttempts := 2 }
  shards := [{ address := "a:1" }]
  numAvailable := 1

/-- The first connection is not valid and its close fails, and the second one passes. -/
def secondPasses : List Attempt :=
  [⟨⟨⟨1⟩, .ok ()⟩, ⟨⟨1⟩, .error (.unhealthy "PING")⟩, ⟨⟨1⟩, .error (.backend "gone")⟩⟩,
    ⟨⟨⟨1⟩, .ok ()⟩, ⟨⟨1⟩, .ok ()⟩, ⟨⟨1⟩, .ok ()⟩⟩]

/-- Both connections of a check are validated and closed, and the check passes. -/
theorem check_spec_two : secondPasses.length = checkedTwice.config.healthCheckAttempts ∧
    ∃ xs q, checking.Ends (checkedTwice, checkedTwice.check "a:1") xs q true ∧
      xs.map Exchange.call = [.probe "a:1", .validate .probe, .close .probe, .probe "a:1",
        .validate .probe, .close .probe] ∧
      q.shards = checkedTwice.shards := by
  obtain ⟨-, hplan, hchecked, -⟩ := check_spec checkedTwice "a:1"
  obtain ⟨q, hends⟩ := hplan secondPasses rfl
  obtain ⟨_, hq⟩ := hchecked _ _ _ hends
  exact ⟨rfl, _, q, hends, by decide, by rw [hq.pool]⟩

end Pool

end QuorumPool
