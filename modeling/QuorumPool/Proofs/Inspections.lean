import QuorumPool.Proofs.Attempts
import QuorumPool.Proofs.Discipline
import QuorumPool.Proofs.QueueOrder

namespace QuorumPool

namespace Activity

variable {σ α : Type} {act : Activity σ α} {v w : Pool × Progress σ α} {p q : Pool} {a : α}
  {xs ys : List Exchange}

/-- From `v` on, the activity comes to `w` by the exchanges with nobody else around. -/
inductive Goes (act : Activity σ α) (v : Pool × Progress σ α) :
    List Exchange → Pool × Progress σ α → Prop
  | refl : Goes act v [] v
  | step {p s xs x} (hgoes : Goes act v xs (p, .waits s)) (hcall : x.call = act.call p s)
      (htime : p.now ≤ x.time) :
      Goes act v (xs ++ [x]) (act.resume (p.setTime x.time) s x.reply)

theorem Goes.ends (hgoes : act.Goes v xs w) (hends : act.Ends w ys q a) :
    act.Ends v (xs ++ ys) q a := by
  induction hgoes generalizing ys with
  | refl => exact hends
  | step _ hcall htime ih =>
    rw [List.append_assoc]
    exact ih (.waits hcall htime hends)

end Activity

/-- What the health checker inspects. -/
def Checker.inspection? (c : Checker) : Option Inspection := c.errand?.map (·.inspection)

/-- Where an inspection of shard `i` is whose check has come so far. -/
def Inspection.of (i : Nat) : Progress Check Bool → Inspection
  | .waits c => checking i c
  | .done healthy => judging (.deciding i healthy)

namespace Inspection

variable {i j : Nat} {v w : Progress Check Bool}

theorem of_inj (heq : of i v = of j w) : i = j ∧ v = w := by
  cases v <;> cases w <;> cases heq <;> exact ⟨rfl, rfl⟩

private theorem of_ne_draining {c : ConnId} {drained : Nat} :
    of i w ≠ judging (.draining j c drained) := by
  cases w <;> nofun

end Inspection

namespace Pool

/-- What passes between the health checker and the factory with the action. -/
def consults (p : Pool) : Action → List Exchange
  | .resumeChecker reply => p.checkerCall?.toList.map fun call => ⟨call, p.now, reply⟩
  | _ => []

variable {p q : Pool} {i : Nat} {w : Progress Check Bool} {reply : Reply}

theorem inspect_eq (p : Pool) (i : Nat) : p.inspect i = .of i (p.check (p.shard i).address) := by
  unfold inspect
  cases p.check (p.shard i).address <;> rfl

/-- An inspection that is at a check, or at a verdict to be decided, is that of its own shard. -/
theorem of_eq_inspect {j : Nat} (hof : p.inspect j = .of i w) : .of i w = p.inspect i := by
  have hsame := hof
  rw [inspect_eq] at hsame
  obtain ⟨rfl, -⟩ := Inspection.of_inj hsame
  exact hof.symm

theorem inspection?_setErrand (p : Pool) (due : Duration) (e : Errand) :
    (p.setErrand due (.waits e)).checker.inspection? = some e.inspection := by
  obtain ⟨journal, heq⟩ := exists_setErrand_eq p due (.waits e)
  rw [heq]
  rfl

theorem inspect_setErrand (p : Pool) (due : Duration) (e : Progress Errand Unit) (i : Nat) :
    (p.setErrand due e).inspect i = p.inspect i := by
  obtain ⟨journal, heq⟩ := exists_setErrand_eq p due e
  rw [heq]
  rfl

/-- A verdict waits for a drain only. -/
private theorem exists_draining_of_resumeVerdict {v v' : Verdict}
    (hwaits : (p.resumeVerdict v reply).2 = .waits v') :
    ∃ j c drained, v' = .draining j c drained := by
  have hdrain : ∀ {q : Pool} {j drained : Nat}, (q.drain j drained).2 = .waits v' →
      ∃ j c drained, v' = .draining j c drained := by
    intro q j drained hdrain
    unfold drain at hdrain
    dsimp only at hdrain
    split at hdrain
    · exact ⟨_, _, _, (Progress.waits.inj hdrain).symm⟩
    · cases hdrain
  unfold resumeVerdict at hwaits
  split at hwaits
  · unfold promote at hwaits
    split at hwaits <;> cases hwaits
  · unfold demote at hwaits
    dsimp only at hwaits
    split at hwaits
    · cases hwaits
    split at hwaits
    · cases hwaits
    · exact hdrain hwaits
  · exact hdrain hwaits

theorem of_sweepFrom {k : Nat} {e : Errand} (hwaits : p.sweepFrom k = .waits e)
    (hof : e.inspection = .of i w) : .of i w = p.inspect i := by
  unfold sweepFrom at hwaits
  split at hwaits
  · obtain rfl := Progress.waits.inj hwaits
    exact of_eq_inspect hof
  · cases hwaits

/-- When an errand comes to a check, or to a verdict that is to be decided, it was a step of the
check that has brought it there, or it has turned to the shard now. -/
theorem of_resumeErrand {e e' : Errand} (hwaits : (p.resumeErrand e reply).2 = .waits e')
    (hof : e'.inspection = .of i w) :
    (∃ c, e.inspection = .checking i c ∧ w = (p.resumeCheck c reply).2) ∨
      .of i w = (p.resumeErrand e reply).1.inspect i := by
  have hat : ∀ s, (e.at s).inspection = s := by cases e <;> exact fun _ => rfl
  cases hs : e.inspection with
  | checking j c =>
    have hresume : (p.resumeInspection (.checking j c) reply).2 =
        .waits (.of j (p.resumeCheck c reply).2) := by
      simp only [resumeInspection]
      rcases p.resumeCheck c reply with ⟨q, c' | healthy⟩ <;> rfl
    obtain ⟨s, hgoes, hnext⟩ | ⟨hdone, -⟩ := snd_resumeErrand p e reply
    · rw [hs, hresume] at hgoes
      obtain rfl := Progress.waits.inj (hnext.symm.trans hwaits)
      rw [hat, ← Progress.waits.inj hgoes] at hof
      obtain ⟨rfl, hw⟩ := Inspection.of_inj hof
      exact .inl ⟨c, rfl, hw.symm⟩
    · rw [hs, hresume] at hdone
      cases hdone
  | judging v =>
    right
    revert hwaits
    unfold resumeErrand
    rw [hs]
    simp only [resumeInspection]
    rcases hverdict : p.resumeVerdict v reply with ⟨q, v' | flipped⟩ <;> intro hwaits
    · have hjudging : e'.inspection = .judging v' := by
        cases e <;> exact (Progress.waits.inj hwaits) ▸ rfl
      obtain ⟨j, c, drained, rfl⟩ := exists_draining_of_resumeVerdict (by rw [hverdict])
      exact absurd (hof.symm.trans hjudging) Inspection.of_ne_draining
    · cases e with
      | recheck s => cases hwaits
      | sweep s => exact of_sweepFrom hwaits hof

/-- What an action means for the check that the health checker is at afterwards. -/
inductive Inspects (p : Pool) (a : Action) (i : Nat) (w : Progress Check Bool) : Prop
  | rests (before : p.checker.inspection? = some (.of i w)) (silent : p.consults a = [])
  /-- The factory has replied to the check, which has taken a step. -/
  | steps {c : Check} {reply : Reply} (before : p.checker.inspection? = some (.of i (.waits c)))
      (consults : p.consults a = [⟨c.call, p.now, reply⟩]) (after : w = (p.resumeCheck c reply).2)
  | begins (inspect : .of i w = (p.act a).inspect i)

/-- An errand that stands somewhere now began there, or was brought there by a step. -/
theorem of_setErrand {due : Duration} {e : Progress Errand Unit}
    (hof : (p.setErrand due e).checker.inspection? = some (.of i w)) :
    ∃ e', e = .waits e' ∧ e'.inspection = .of i w := by
  cases e with
  | waits e' =>
    rw [inspection?_setErrand, Option.some.injEq] at hof
    exact ⟨e', rfl, hof⟩
  | done _ => cases hof

private theorem inspects_turn (hof : p.turn.checker.inspection? = some (.of i w)) :
    p.checker.inspection? = some (.of i w) ∨ .of i w = p.turn.inspect i := by
  revert hof
  unfold turn
  split
  · nofun
  · split
    · nofun
    split
    · intro hof
      rw [inspection?_setErrand, Option.some.injEq] at hof
      rw [inspect_setErrand]
      exact .inr (of_eq_inspect hof)
    · split
      · intro hof
        obtain ⟨e, hwaits, he⟩ := of_setErrand hof
        rw [inspect_setErrand]
        exact .inr (of_sweepFrom hwaits he)
      · exact .inl
  · rename_i due e hworking
    split
    · exact .inl
    · rename_i hnone
      intro hof
      obtain ⟨e', hwaits, he'⟩ := of_setErrand hof
      rw [inspect_setErrand]
      obtain ⟨c, hchecking, -⟩ | hbegins := of_resumeErrand hwaits he'
      · rw [hchecking] at hnone
        cases hnone
      · exact .inr hbegins
  · exact .inl

private theorem inspects_resumeChecker
    (hof : (p.resumeChecker reply).checker.inspection? = some (.of i w)) :
    p.Inspects (.resumeChecker reply) i w := by
  cases hchecker : p.checker with
  | working due e =>
    cases hcall : e.inspection.call? with
    | some call =>
      simp only [resumeChecker, hchecker, hcall] at hof
      obtain ⟨e', hwaits, he'⟩ := of_setErrand hof
      obtain ⟨c, hchecking, hw⟩ | hbegins := of_resumeErrand hwaits he'
      · have hcheck : e.inspection.call? = some c.call := by rw [hchecking]; rfl
        refine .steps ?_ ?_ hw
        · rw [Checker.inspection?, hchecker]
          exact congrArg some hchecking
        · simp [consults, checkerCall?, hchecker, hcheck]
      · refine .begins ?_
        simp only [Pool.act, resumeChecker, hchecker, hcall, inspect_setErrand]
        exact hbegins
    | none =>
      simp only [resumeChecker, hchecker, hcall] at hof
      exact .rests (hchecker ▸ hof) (by simp [consults, checkerCall?, hchecker, hcall])
  | spawned | waiting | stopped =>
    simp only [resumeChecker, hchecker] at hof
    cases hof

theorem inspects_act {a : Action} (hof : (p.act a).checker.inspection? = some (.of i w)) :
    p.Inspects a i w := by
  cases a with
  | turn =>
    obtain hsame | hbegins := inspects_turn hof
    · exact .rests hsame rfl
    · exact .begins hbegins
  | resumeChecker reply => exact inspects_resumeChecker hof
  | start request =>
    obtain ⟨l, hdoes, -⟩ := Does.exists_begin p request
    obtain ⟨tasks, nextTask, journal, heq⟩ := exists_start_eq p request
    rw [Pool.act, heq] at hof
    exact .rests (hdoes.checker ▸ hof) rfl
  | resume id reply =>
    cases ht : p.task? id with
    | none =>
      rw [Pool.act, Pool.resume, ht] at hof
      exact .rests hof rfl
    | some t =>
      obtain ⟨l, hdoes, -⟩ := Does.exists_advance p t reply
      obtain ⟨tasks, journal, heq⟩ := exists_resume_eq ht reply
      rw [Pool.act, heq] at hof
      exact .rests (hdoes.checker ▸ hof) rfl
  | setTime | takeStats | takeShardStats | abandon => exact .rests hof rfl

/-- The check of shard `i` that has come to `w` has begun in the run, and what has passed since
between the health checker and the factory brings a check to `w` with nobody else around. -/
inductive Underway (p : Pool) (as : List Action) (i : Nat) (w : Progress Check Bool) : Prop
  | intro (pre mid : List Action) (r : Pool) (split : as = pre ++ mid)
      (config : r.config = p.config) (now : r.now ≤ (p.after as).now)
      (goes : checking.Goes (p.after pre, (p.after pre).check ((p.after pre).shard i).address)
        (along consults (p.after pre) mid) (r, w))

theorem underway_after (hwf : p.WellFormed) (hspawned : p.checker = .spawned) {as : List Action}
    (hruns : p.Runs as) (hof : (p.after as).checker.inspection? = some (.of i w)) :
    p.Underway as i w := by
  induction as using List.reverseRecOn generalizing w with
  | nil =>
    rw [Pool.after, hspawned] at hof
    cases hof
  | append_singleton as a ih =>
    obtain ⟨hbefore, hadmits, -⟩ := runs_append.mp hruns
    have hnow : (p.after as).now ≤ (p.after (as ++ [a])).now := by
      rw [after_concat]
      have hone : (p.after as).Runs [a] := ⟨hadmits, trivial⟩
      exact (invariant_now_le (p.after as).now).after hone (hwf.after as) (Nat.le_refl _)
    rw [after_concat] at hof
    cases inspects_act hof with
    | rests before silent =>
      obtain ⟨pre, mid, r, split, config, now, goes⟩ := ih hbefore before
      refine .intro pre (mid ++ [a]) r (by rw [split, List.append_assoc]) config
        (Nat.le_trans now hnow) ?_
      rw [along_concat, ← after_append, ← split, silent, List.append_nil]
      exact goes
    | @steps c reply before consults after =>
      obtain ⟨pre, mid, r, split, config, now, goes⟩ := ih hbefore before
      have hconfig : (r.setTime (p.after as).now).config = (p.after as).config :=
        config.trans (abides_after p as).config.symm
      obtain ⟨journal, hresume⟩ := exists_resumeCheck_congr hconfig c reply
      rw [← after] at hresume
      have hstep := goes.step (x := ⟨c.call, (p.after as).now, reply⟩) rfl now
      refine .intro pre (mid ++ [a]) { r.setTime (p.after as).now with journal }
        (by rw [split, List.append_assoc]) config hnow ?_
      rw [along_concat, ← after_append, ← split, consults, ← hresume]
      exact hstep
    | begins inspect =>
      rw [inspect_eq, ← after_concat] at inspect
      obtain ⟨-, rfl⟩ := Inspection.of_inj inspect
      exact .intro _ [] _ (List.append_nil _).symm (abides_after p _).config (Nat.le_refl _) .refl

/-- Each verdict of the health checker, whether in a recheck or in a sweep, is what a check of the
shard has come to: whatever happens to the pool meanwhile, what has passed between the health
checker and the factory since the check began is what passes in attempts that are made one after the
other, up to the first that passes. -/
theorem checked_of_deciding {config : Config} {addresses : List String} {now slack : Duration}
    (hcreate : create config addresses now = .ok p) {as : List Action}
    (hruns : { p with tickSlack := slack }.Runs as) {healthy : Bool}
    (hdeciding : ({ p with tickSlack := slack }.after as).checker.inspection? =
      some (.judging (.deciding i healthy))) :
    ∃ pre mid q attempts, as = pre ++ mid ∧
      ({ p with tickSlack := slack }.after pre).Checked
        (({ p with tickSlack := slack }.after pre).shard i).address
        (along consults ({ p with tickSlack := slack }.after pre) mid) q healthy attempts := by
  have hwf : { p with tickSlack := slack }.WellFormed :=
    (WellFormed.of_create hcreate).congr rfl rfl rfl rfl rfl rfl
  have hspawned : p.checker = .spawned := by
    obtain ⟨-, -, hp⟩ := eq_of_create hcreate
    rw [hp]
    rfl
  obtain ⟨pre, mid, r, split, -, -, goes⟩ :=
    underway_after (w := .done healthy) hwf hspawned hruns hdeciding
  have hends := goes.ends (.done r healthy)
  rw [List.append_nil] at hends
  obtain ⟨attempts, hchecked⟩ := exists_checked_of_ends hends
  exact ⟨pre, mid, r, attempts, split, hchecked⟩

end Pool

end QuorumPool
