import QuorumPool.Proofs.Changes

namespace QuorumPool

namespace Checker

/-- When the next sweep is due, while the health checker is running. -/
def due? : Checker → Option Duration
  | waiting due | working due _ => some due
  | spawned | stopped => none

def errand? : Checker → Option Errand
  | working _ e => some e
  | spawned | waiting _ | stopped => none

/-- The shard that is being rechecked. -/
def rechecked? : Checker → Option Nat
  | working _ (.recheck s) => some s.shard
  | working _ (.sweep _) | spawned | waiting _ | stopped => none

theorem due?_standing (due : Duration) (w : Progress Errand Unit) :
    (standing due w).due? = some due := by
  cases w <;> rfl

private theorem standing_ne_spawned (due : Duration) (w : Progress Errand Unit) :
    standing due w ≠ spawned := by
  cases w <;> nofun

end Checker

/-- The errand with its inspection at another point. -/
def Errand.at : Errand → Inspection → Errand
  | recheck _, s => recheck s
  | sweep _, s => sweep s

namespace Pool

section Observe

/-- When the health checker starts, if it does so with the action. -/
def begins (p : Pool) (a : Action) : List Duration :=
  if p.checker = .spawned ∧ (p.act a).checker ≠ .spawned then [p.now] else []

/-- When a sweep starts, if one does so with the action: the one after it is then due at a time of
its own. A sweep that finds no shard to check is over at once. -/
def sweeps (p : Pool) (a : Action) : List Duration :=
  match p.checker.due?, (p.act a).checker.due? with
  | some due, some next => if due = next then [] else [p.now]
  | _, _ => []

/-- The shard whose recheck starts with the action, if one does. -/
def rechecks (p : Pool) (a : Action) : List Nat :=
  match p.checker.rechecked?, (p.act a).checker.rechecked? with
  | none, some i => [i]
  | _, _ => []

/-- The shards that join the suspect queue with the action. What was queued before it is still there
after it, but for a shard whose recheck starts. -/
def signals (p : Pool) (a : Action) : List Nat :=
  (p.act a).suspects.drop (p.suspects.length - (p.rechecks a).length)

/-- The health checker takes something up with the action. -/
def Starts (p : Pool) (a : Action) : Prop := p.sweeps a ≠ [] ∨ p.rechecks a ≠ []

end Observe

/-- What no action changes, and what none takes back. -/
structure Abides (p q : Pool) : Prop where
  config : q.config = p.config
  tickSlack : q.tickSlack = p.tickSlack
  stopping : p.stopping = true → q.stopping = true
  stops : q.closed = true → p.closed = true ∨ q.stopping = true

/-- What becomes of the health checker and its queue in one action. -/
inductive CheckerMoves (p q : Pool) : Prop
  /-- It takes no turn, or one that changes nothing. -/
  | rests (checker : q.checker = p.checker) (suspects : p.suspects <+: q.suspects)
  | begins (spawned : p.checker = .spawned)
      (checker : q.checker = .waiting (p.now + p.config.healthCheckInterval))
      (suspects : q.suspects = p.suspects)
  | stops {due : Duration} (waiting : p.checker = .waiting due) (checker : q.checker = .stopped)
  | rechecks {due : Duration} {s : Inspection} (waiting : p.checker = .waiting due)
      (told : p.stopping = false) (suspects : p.suspects = s.shard :: q.suspects)
      (checker : q.checker = .working due (.recheck s))
  | sweeps {due : Duration} (waiting : p.checker = .waiting due) (told : p.stopping = false)
      (none : p.suspects = []) (suspects : q.suspects = []) (le : due ≤ p.now)
      (checker : q.checker = .standing (p.nextDue due) (p.sweepFrom 0))
  /-- The errand that it is about goes on. -/
  | goesOn {due : Duration} {e : Errand} {reply : Reply} (working : p.checker = .working due e)
      (checker : q.checker = .standing due (p.resumeErrand e reply).2)
      (suspects : p.suspects <+: q.suspects)

variable {p q r : Pool} {l : List Change}

theorem Abides.refl (p : Pool) : p.Abides p := ⟨rfl, rfl, id, .inl⟩

theorem Abides.trans (hpq : p.Abides q) (hqr : q.Abides r) : p.Abides r where
  config := hqr.config.trans hpq.config
  tickSlack := hqr.tickSlack.trans hpq.tickSlack
  stopping hp := hqr.stopping (hpq.stopping hp)
  stops hr := (hqr.stops hr).elim (fun hq => (hpq.stops hq).imp_right hqr.stopping) .inr

theorem Does.abides (hdoes : p.Does l q) (tasks : List (TaskId × Task)) (nextTask : TaskId)
    (checker : Checker) (journal : List Entry) :
    p.Abides { q with tasks, nextTask, checker, journal } :=
  ⟨hdoes.config, hdoes.tickSlack, hdoes.stopping, hdoes.stops⟩

/-- A sweep is over, or goes on to a shard that it has not come to before. -/
theorem sweepFrom_eq (p : Pool) (i : Nat) :
    p.sweepFrom i = .done () ∨ ∃ s, p.sweepFrom i = .waits (.sweep s) ∧ i ≤ s.shard := by
  unfold sweepFrom
  split
  · rename_i j hj
    obtain ⟨k, -, rfl⟩ := Option.map_eq_some_iff.mp hj
    refine .inr ⟨_, rfl, ?_⟩
    rw [shard_inspect]
    exact Nat.le_add_right i k
  · exact .inl rfl

/-- An errand goes on with its inspection; when that is over, a recheck is too, and a sweep is or
turns to a later shard. -/
theorem snd_resumeErrand (p : Pool) (e : Errand) (reply : Reply) :
    (∃ s, (p.resumeInspection e.inspection reply).2 = .waits s ∧
      (p.resumeErrand e reply).2 = .waits (e.at s)) ∨
    (p.resumeInspection e.inspection reply).2 = .done () ∧
      ((p.resumeErrand e reply).2 = .done () ∨ ∃ s s', e = .sweep s ∧
        (p.resumeErrand e reply).2 = .waits (.sweep s') ∧ s.shard < s'.shard) := by
  unfold resumeErrand
  rcases p.resumeInspection e.inspection reply with ⟨q, s | _⟩
  · cases e <;> exact .inl ⟨s, rfl, rfl⟩
  · refine .inr ⟨rfl, ?_⟩
    cases e with
    | recheck s => exact .inl rfl
    | sweep s =>
      obtain hdone | ⟨s', hwaits, hlt⟩ := sweepFrom_eq q (s.shard + 1)
      · exact .inl hdone
      · exact .inr ⟨s, s', rfl, hwaits, hlt⟩

theorem checkerMoves_resumeErrand {due : Duration} {e : Errand}
    (hworking : p.checker = .working due e) (reply : Reply) :
    p.Abides ((p.resumeErrand e reply).1.setErrand due (p.resumeErrand e reply).2) ∧
      p.CheckerMoves ((p.resumeErrand e reply).1.setErrand due (p.resumeErrand e reply).2) := by
  have hdoes := Does.resumeErrand p e reply
  obtain ⟨journal, heq⟩ := exists_setErrand_eq (p.resumeErrand e reply).1 due
    (p.resumeErrand e reply).2
  rw [heq]
  exact ⟨hdoes.abides _ _ _ _, .goesOn hworking rfl hdoes.suspects⟩

private theorem checkerMoves_turn (p : Pool) : p.Abides p.turn ∧ p.CheckerMoves p.turn := by
  have hrest : p.Abides p ∧ p.CheckerMoves p := ⟨.refl p, .rests rfl List.prefix_rfl⟩
  unfold turn
  split
  · rename_i hspawned
    exact ⟨⟨rfl, rfl, id, .inl⟩, .begins hspawned rfl rfl⟩
  · rename_i due hwaiting
    split
    · exact ⟨⟨rfl, rfl, id, .inl⟩, .stops hwaiting rfl⟩
    rename_i htold
    rw [Bool.not_eq_true] at htold
    split
    · rename_i i rest hsuspects
      let r : Pool := { p with suspects := rest }.note (.checkingSuspect (p.shard i).address)
      obtain ⟨journal, heq⟩ := exists_setErrand_eq r due (.waits (.recheck (r.inspect i)))
      dsimp only
      rw [heq]
      refine ⟨⟨rfl, rfl, id, .inl⟩, .rechecks hwaiting htold ?_ rfl⟩
      rw [shard_inspect]
      exact hsuspects
    · rename_i hnone
      split
      · rename_i hdue
        obtain ⟨journal, heq⟩ := exists_setErrand_eq p (p.nextDue due) (p.sweepFrom 0)
        rw [heq]
        exact ⟨⟨rfl, rfl, id, .inl⟩, .sweeps hwaiting htold hnone hnone hdue rfl⟩
      · exact hrest
  · rename_i due e hworking
    split
    · exact hrest
    · exact checkerMoves_resumeErrand hworking (.ok ())
  · exact hrest

private theorem checkerMoves_resumeChecker (p : Pool) (reply : Reply) :
    p.Abides (p.resumeChecker reply) ∧ p.CheckerMoves (p.resumeChecker reply) := by
  have hrest : p.Abides p ∧ p.CheckerMoves p := ⟨.refl p, .rests rfl List.prefix_rfl⟩
  unfold resumeChecker
  split
  · rename_i due e hworking
    split
    · exact checkerMoves_resumeErrand hworking reply
    · exact hrest
  · exact hrest

/-- Only its own turns and replies change what the health checker is about, and every other action
leaves its queue as it is or adds to its end. -/
theorem checkerMoves_act (p : Pool) (a : Action) :
    p.Abides (p.act a) ∧ p.CheckerMoves (p.act a) := by
  cases a with
  | start request =>
    obtain ⟨l, hdoes, -⟩ := Does.exists_begin p request
    obtain ⟨tasks, nextTask, journal, heq⟩ := exists_start_eq p request
    change p.Abides (p.start request).1 ∧ p.CheckerMoves (p.start request).1
    rw [heq]
    exact ⟨hdoes.abides _ _ _ _, .rests hdoes.checker hdoes.suspects⟩
  | resume id reply =>
    change p.Abides (p.resume id reply).1 ∧ p.CheckerMoves (p.resume id reply).1
    cases ht : p.task? id with
    | none =>
      simp only [Pool.resume, ht]
      exact ⟨.refl p, .rests rfl List.prefix_rfl⟩
    | some t =>
      obtain ⟨l, hdoes, -⟩ := Does.exists_advance p t reply
      obtain ⟨tasks, journal, heq⟩ := exists_resume_eq ht reply
      rw [heq]
      exact ⟨hdoes.abides _ _ _ _, .rests hdoes.checker hdoes.suspects⟩
  | turn => exact checkerMoves_turn p
  | resumeChecker reply => exact checkerMoves_resumeChecker p reply
  | setTime | takeStats | takeShardStats =>
    exact ⟨⟨rfl, rfl, id, .inl⟩, .rests rfl List.prefix_rfl⟩
  | abandon => exact ⟨⟨rfl, rfl, fun _ => rfl, .inl⟩, .rests rfl List.prefix_rfl⟩

section Step

variable {a : Action}

theorem rechecks_eq_nil (hstill : p.checker.rechecked? = none →
    (p.act a).checker.rechecked? = none) : p.rechecks a = [] := by
  unfold rechecks
  split
  · rename_i hnone hsome
    rw [hstill hnone] at hsome
    cases hsome
  · rfl

/-- A recheck starts when the health checker waits, was not told to stop and finds the shard at the
head of its queue. Without one the queue keeps what it has, unless the health checker stops. -/
theorem rechecks_act (p : Pool) (a : Action) :
    p.rechecks a = [] ∧ ((p.act a).checker = .stopped ∨ p.suspects <+: (p.act a).suspects) ∨
    ∃ due i, p.checker = .waiting due ∧ p.stopping = false ∧
      p.suspects = i :: (p.act a).suspects ∧ p.rechecks a = [i] := by
  obtain ⟨hchecker, hkept⟩ | ⟨-, hchecker, hkept⟩ | ⟨-, hchecker⟩ |
    ⟨hwaiting, htold, hsuspects, hchecker⟩ | ⟨-, -, hnone, hkept, -, hchecker⟩ |
    ⟨hworking, hchecker, hkept⟩ := (checkerMoves_act p a).2
  · exact .inl ⟨rechecks_eq_nil fun hnone => by rw [hchecker, hnone], .inr hkept⟩
  · exact .inl ⟨rechecks_eq_nil fun _ => by rw [hchecker]; rfl, .inr (hkept ▸ List.prefix_rfl)⟩
  · exact .inl ⟨rechecks_eq_nil fun _ => by rw [hchecker]; rfl, .inl hchecker⟩
  · refine .inr ⟨_, _, hwaiting, htold, hsuspects, ?_⟩
    simp only [rechecks, hwaiting, hchecker, Checker.rechecked?]
  · refine .inl ⟨rechecks_eq_nil fun _ => ?_, .inr (by rw [hnone, hkept])⟩
    obtain hsweep | ⟨s, hsweep, -⟩ := sweepFrom_eq p 0 <;> rw [hchecker, hsweep] <;> rfl
  · rename_i due e reply
    refine .inl ⟨rechecks_eq_nil fun hnone => ?_, .inr hkept⟩
    rw [hworking] at hnone
    obtain ⟨s, -, hwaits⟩ | ⟨-, hdone | ⟨-, s, -, hwaits, -⟩⟩ := snd_resumeErrand p e reply
    · rw [hchecker, hwaits]
      cases e with
      | recheck _ => cases hnone
      | sweep _ => rfl
    · rw [hchecker, hdone]
      rfl
    · rw [hchecker, hwaits]
      rfl

/-- What was queued is rechecked in this order or is queued still, before what joins the queue. -/
theorem rechecks_append_suspects (p : Pool) (a : Action) (hstopped : (p.act a).checker ≠ .stopped) :
    p.rechecks a ++ (p.act a).suspects = p.suspects ++ p.signals a := by
  unfold signals
  obtain ⟨hnone, hkept⟩ | ⟨due, s, -, -, hsuspects, hone⟩ := rechecks_act p a
  · rw [hnone, List.nil_append, List.length_nil, Nat.sub_zero]
    exact (List.prefix_iff_eq_append.mp (hkept.resolve_left hstopped)).symm
  · rw [hone, hsuspects]
    simp

theorem sweeps_of_due {due next : Duration} (hp : p.checker.due? = some due)
    (hq : (p.act a).checker.due? = some next) :
    p.sweeps a = if due = next then [] else [p.now] := by
  simp only [sweeps, hp, hq]

private theorem sweeps_eq_nil (hsame : ∀ due next, p.checker.due? = some due →
    (p.act a).checker.due? = some next → due = next) : p.sweeps a = [] := by
  unfold sweeps
  split
  · rename_i hdue hnext
    exact if_pos (hsame _ _ hdue hnext)
  · rfl

/-- A sweep starts when the health checker waits, was not told to stop, has no suspect in its queue
and the sweep is due. -/
theorem sweeps_act (p : Pool) (a : Action) :
    p.sweeps a = [] ∧ (∀ next, (p.act a).checker.due? = some next → p.checker.due? = some next ∨
      p.checker = .spawned ∧ next = p.now + p.config.healthCheckInterval) ∨
    ∃ due, p.checker = .waiting due ∧ p.stopping = false ∧ p.suspects = [] ∧ due ≤ p.now ∧
      (p.act a).checker.due? = some (p.nextDue due) ∧ ∀ t ∈ p.sweeps a, t = p.now := by
  have hkept : ∀ due, p.checker.due? = some due → (p.act a).checker.due? = some due →
      p.sweeps a = [] ∧ ∀ next, (p.act a).checker.due? = some next → p.checker.due? = some next ∨
        p.checker = .spawned ∧ next = p.now + p.config.healthCheckInterval := by
    intro due hdue hnext
    refine ⟨sweeps_eq_nil fun _ _ h h' => ?_, fun next h => .inl ?_⟩
    · exact Option.some.inj ((h.symm.trans hdue).trans (hnext.symm.trans h'))
    · rw [hdue, ← hnext, h]
  obtain ⟨hchecker, -⟩ | ⟨hspawned, hchecker, -⟩ | ⟨-, hchecker⟩ |
    ⟨hwaiting, -, -, hchecker⟩ | ⟨hwaiting, htold, hnone, -, hle, hchecker⟩ |
    ⟨hworking, hchecker, -⟩ := (checkerMoves_act p a).2
  · refine .inl ⟨sweeps_eq_nil fun _ _ h h' => ?_, fun next h => .inl (hchecker ▸ h)⟩
    rw [hchecker] at h'
    exact Option.some.inj (h.symm.trans h')
  · refine .inl ⟨sweeps_eq_nil fun _ _ h => ?_, fun next h => .inr ⟨hspawned, ?_⟩⟩
    · rw [hspawned] at h
      cases h
    · rw [hchecker] at h
      exact (Option.some.inj h).symm
  · refine .inl ⟨sweeps_eq_nil fun _ _ _ h => ?_, fun next h => ?_⟩ <;>
      rw [hchecker] at h <;> cases h
  · exact .inl (hkept _ (by rw [hwaiting]; rfl) (by rw [hchecker]; rfl))
  · refine .inr ⟨_, hwaiting, htold, hnone, hle, ?_, fun t ht => ?_⟩
    · rw [hchecker, Checker.due?_standing]
    · unfold sweeps at ht
      split at ht
      · split at ht
        · cases ht
        · exact List.mem_singleton.mp ht
      · cases ht
  · exact .inl (hkept _ (by rw [hworking]; rfl) (by rw [hchecker, Checker.due?_standing]))

/-- The health checker starts once. -/
theorem spawned_of_act (hq : (p.act a).checker = .spawned) : p.checker = .spawned := by
  obtain ⟨hchecker, -⟩ | ⟨-, hchecker, -⟩ | ⟨-, hchecker⟩ | ⟨-, -, -, hchecker⟩ |
    ⟨-, -, -, -, -, hchecker⟩ | ⟨-, hchecker, -⟩ := (checkerMoves_act p a).2
  · rw [← hchecker, hq]
  · cases hq.symm.trans hchecker
  · cases hq.symm.trans hchecker
  · cases hq.symm.trans hchecker
  · exact absurd (hchecker.symm.trans hq) (Checker.standing_ne_spawned _ _)
  · exact absurd (hchecker.symm.trans hq) (Checker.standing_ne_spawned _ _)

/-- A health checker that has stopped stays so. -/
theorem stopped_act (hp : p.checker = .stopped) (a : Action) : (p.act a).checker = .stopped := by
  obtain ⟨hchecker, -⟩ | ⟨hspawned, -⟩ | ⟨hwaiting, -⟩ | ⟨hwaiting, -⟩ | ⟨hwaiting, -⟩ |
    ⟨hworking, -⟩ := (checkerMoves_act p a).2
  · rw [hchecker, hp]
  · cases hp.symm.trans hspawned
  · cases hp.symm.trans hwaiting
  · cases hp.symm.trans hwaiting
  · cases hp.symm.trans hwaiting
  · cases hp.symm.trans hworking

/-- What starts does so while the health checker waits and was not told to stop. -/
theorem Starts.waiting (hstarts : p.Starts a) :
    (∃ due, p.checker = .waiting due) ∧ p.stopping = false := by
  obtain hsweeps | hrechecks := hstarts
  · obtain ⟨hnone, -⟩ | ⟨due, hwaiting, htold, -⟩ := sweeps_act p a
    · exact absurd hnone hsweeps
    · exact ⟨⟨due, hwaiting⟩, htold⟩
  · obtain ⟨hnone, -⟩ | ⟨due, s, hwaiting, htold, -⟩ := rechecks_act p a
    · exact absurd hnone hrechecks
    · exact ⟨⟨due, hwaiting⟩, htold⟩

/-- A health checker that has nothing in hand takes something up only by a sweep or a recheck that
starts. -/
theorem starts_of_errand (hinterval : 0 < p.config.healthCheckInterval.nanos)
    (hp : p.checker.errand? = none) (hq : (p.act a).checker.errand? ≠ none) : p.Starts a := by
  obtain ⟨hchecker, -⟩ | ⟨-, hchecker, -⟩ | ⟨-, hchecker⟩ | ⟨hwaiting, -, -, hchecker⟩ |
    ⟨hwaiting, -, -, -, -, hchecker⟩ | ⟨hworking, -⟩ := (checkerMoves_act p a).2
  · exact absurd (hchecker ▸ hp) hq
  · exact absurd (by rw [hchecker]; rfl) hq
  · exact absurd (by rw [hchecker]; rfl) hq
  · refine .inr ?_
    simp [rechecks, hwaiting, hchecker, Checker.rechecked?]
  · rename_i due
    refine .inl ?_
    have hne : due ≠ p.nextDue due := by
      intro heq
      have hlt : due.nanos < (p.nextDue due).nanos := by
        simp only [nextDue, Duration.lt_iff, Duration.nanos_add]
        split <;> simp only [Duration.nanos_add] <;> omega
      rw [← heq] at hlt
      exact Nat.lt_irrefl _ hlt
    rw [sweeps_of_due (by rw [hwaiting]; rfl) (by rw [hchecker, Checker.due?_standing]), if_neg hne]
    exact List.cons_ne_nil _ _
  · rw [hworking] at hp
    cases hp

/-- The check that the health checker is about goes on, at its shard, until its verdict is settled.
Only then is a recheck over, and is a sweep over or at a later shard. -/
theorem errand_act {e : Errand} (hp : p.checker.errand? = some e) (a : Action) :
    (∃ s, (p.act a).checker.errand? = some (e.at s) ∧ s.shard = e.inspection.shard) ∨
    (∃ reply, (p.resumeInspection e.inspection reply).2 = .done ()) ∧
      ∀ e', (p.act a).checker.errand? = some e' →
        ∃ s s', e = .sweep s ∧ e' = .sweep s' ∧ s.shard < s'.shard := by
  obtain ⟨hchecker, -⟩ | ⟨hspawned, -⟩ | ⟨hwaiting, -⟩ | ⟨hwaiting, -⟩ | ⟨hwaiting, -⟩ |
    ⟨hworking, hchecker, -⟩ := (checkerMoves_act p a).2
  · exact .inl ⟨e.inspection, by rw [hchecker, hp]; cases e <;> rfl, rfl⟩
  · rw [hspawned] at hp
    cases hp
  · rw [hwaiting] at hp
    cases hp
  · rw [hwaiting] at hp
    cases hp
  · rw [hwaiting] at hp
    cases hp
  · rename_i due e reply
    rw [hworking] at hp
    obtain rfl := Option.some.inj hp
    obtain ⟨s, hon, hwaits⟩ | ⟨hover, hdone | ⟨s, s', rfl, hwaits, hlt⟩⟩ :=
      snd_resumeErrand p e reply
    · exact .inl ⟨s, by rw [hchecker, hwaits]; rfl, shard_eq_of_resumeInspection hon⟩
    · refine .inr ⟨⟨reply, hover⟩, fun e' he' => ?_⟩
      rw [hchecker, hdone] at he'
      cases he'
    · refine .inr ⟨⟨reply, hover⟩, fun e' he' => ?_⟩
      rw [hchecker, hwaits] at he'
      exact ⟨s, s', rfl, (Option.some.inj he').symm, hlt⟩

end Step

section Run

variable {as : List Action}

theorem abides_after (p : Pool) (as : List Action) : p.Abides (p.after as) := by
  induction as generalizing p with
  | nil => exact .refl p
  | cons a as ih => exact (checkerMoves_act p a).1.trans (ih (p.act a))

/-- How the sweeps of a run lie to each other and to the one that is due next. -/
structure Rhythm (p : Pool) (as : List Action) : Prop where
  spawned : (p.after as).checker = .spawned → along sweeps p as = []
  first : ∀ t ∈ along sweeps p as, ∃ start ∈ along begins p as,
    start + p.config.healthCheckInterval ≤ t
  apart : (along sweeps p as).Pairwise fun t u => t + p.config.healthCheckInterval ≤ u + p.tickSlack
  due : ∀ next, (p.after as).checker.due? = some next →
    (∃ start ∈ along begins p as, start + p.config.healthCheckInterval ≤ next) ∧
    ∀ t ∈ along sweeps p as, t + p.config.healthCheckInterval ≤ next + p.tickSlack

/-- The sweep after one that starts now is due an interval after the one before was, and an interval
from now, less the slack. -/
theorem le_nextDue (p : Pool) (due : Duration) :
    due ≤ p.nextDue due ∧ p.now + p.config.healthCheckInterval ≤ p.nextDue due + p.tickSlack := by
  simp only [nextDue, Duration.lt_iff, Duration.le_iff, Duration.nanos_add]
  split <;> simp only [Duration.nanos_add] <;> omega

namespace Rhythm

theorem begun_concat {t : Duration} (a : Action)
    (hbegun : ∃ start ∈ along begins p as, start + p.config.healthCheckInterval ≤ t) :
    ∃ start ∈ along begins p (as ++ [a]), start + p.config.healthCheckInterval ≤ t := by
  obtain ⟨start, hstart, hle⟩ := hbegun
  exact ⟨start, by rw [along_concat]; exact List.mem_append_left _ hstart, hle⟩

/-- An action with which no sweep starts. -/
theorem rest (hrhythm : Rhythm p as) {a : Action} (hnone : (p.after as).sweeps a = [])
    (hkept : ∀ next, ((p.after as).act a).checker.due? = some next →
      (p.after as).checker.due? = some next ∨ (p.after as).checker = .spawned ∧
        next = (p.after as).now + (p.after as).config.healthCheckInterval) :
    Rhythm p (as ++ [a]) := by
  have hsweeps : along sweeps p (as ++ [a]) = along sweeps p as := by
    rw [along_concat, hnone, List.append_nil]
  refine ⟨?_, ?_, ?_, ?_⟩ <;> rw [hsweeps]
  · rw [after_concat]
    exact fun hchecker => hrhythm.spawned (spawned_of_act hchecker)
  · exact fun t ht => begun_concat a (hrhythm.first t ht)
  · exact hrhythm.apart
  · intro next hnext
    rw [after_concat] at hnext
    obtain hold | ⟨hspawned, rfl⟩ := hkept next hnext
    · exact (hrhythm.due next hold).imp_left (begun_concat a)
    · refine ⟨⟨(p.after as).now, ?_, ?_⟩, fun t ht => ?_⟩
      · have hstart : ((p.after as).act a).checker ≠ .spawned := fun h => by
          rw [h] at hnext
          cases hnext
        rw [along_concat, begins, if_pos ⟨hspawned, hstart⟩]
        exact List.mem_append_right _ List.mem_cons_self
      · rw [(abides_after p as).config]
        exact Nat.le_refl _
      · rw [hrhythm.spawned hspawned] at ht
        cases ht

/-- An action with which the sweep starts that is due. -/
theorem sweep (hrhythm : Rhythm p as) {a : Action} {due : Duration}
    (hwaiting : (p.after as).checker = .waiting due) (hle : due ≤ (p.after as).now)
    (hnext : ((p.after as).act a).checker.due? = some ((p.after as).nextDue due))
    (hnow : ∀ t ∈ (p.after as).sweeps a, t = (p.after as).now) : Rhythm p (as ++ [a]) := by
  obtain ⟨hconfig, hslack, -, -⟩ := abides_after p as
  obtain ⟨⟨start, hstart, hsince⟩, hdue⟩ := hrhythm.due due (by rw [hwaiting]; rfl)
  obtain ⟨hlater, hinterval⟩ := le_nextDue (p.after as) due
  rw [hconfig, hslack] at hinterval
  have hold : ∀ t ∈ along sweeps p as, ∀ u : Duration, due ≤ u →
      t + p.config.healthCheckInterval ≤ u + p.tickSlack := by
    intro t ht u hu
    have ht := hdue t ht
    simp only [Duration.le_iff, Duration.nanos_add] at ht hu ⊢
    omega
  refine ⟨fun hspawned => ?_, fun t ht => ?_, ?_, fun next hnext' => ?_⟩
  · rw [after_concat] at hspawned
    rw [hspawned] at hnext
    cases hnext
  · rw [along_concat] at ht
    obtain ht | ht := List.mem_append.mp ht
    · exact begun_concat a (hrhythm.first t ht)
    · rw [hnow t ht]
      exact begun_concat a ⟨start, hstart, Nat.le_trans hsince hle⟩
  · rw [along_concat]
    refine List.pairwise_append.mpr ⟨hrhythm.apart, ?_, fun t ht u hu => ?_⟩
    · rw [sweeps_of_due (by rw [hwaiting]; rfl) hnext]
      split
      · exact .nil
      · exact List.pairwise_singleton _ _
    · exact hold t ht u (hnow u hu ▸ hle)
  · rw [after_concat, hnext] at hnext'
    obtain rfl := Option.some.inj hnext'
    refine ⟨begun_concat a ⟨start, hstart, Nat.le_trans hsince hlater⟩, fun t ht => ?_⟩
    rw [along_concat] at ht
    obtain ht | ht := List.mem_append.mp ht
    · exact hold t ht _ hlater
    · rw [hnow t ht]
      exact hinterval

end Rhythm

theorem rhythm_after (hspawned : p.checker = .spawned) (as : List Action) : Rhythm p as := by
  induction as using List.reverseRecOn with
  | nil =>
    refine ⟨fun _ => rfl, fun t ht => ?_, List.Pairwise.nil, fun next hnext => ?_⟩
    · cases ht
    · rw [after, hspawned] at hnext
      cases hnext
  | append_singleton as a ih =>
    obtain ⟨hnone, hkept⟩ | ⟨due, hwaiting, -, -, hle, hnext, hnow⟩ := sweeps_act (p.after as) a
    · exact ih.rest hnone hkept
    · exact ih.sweep hwaiting hle hnext hnow

/-- Until the health checker stops, the shards that were queued are those that were rechecked, in
the same order, and then those that still wait. -/
theorem rechecks_append_suspects_after (p : Pool) (as : List Action)
    (hstopped : (p.after as).checker ≠ .stopped) :
    along rechecks p as ++ (p.after as).suspects = p.suspects ++ along signals p as := by
  induction as using List.reverseRecOn with
  | nil => simp [along, after]
  | append_singleton as a ih =>
    rw [after_concat] at hstopped
    have hold := ih fun h => hstopped (stopped_act h a)
    rw [along_concat, along_concat, after_concat, List.append_assoc,
      rechecks_append_suspects _ _ hstopped, ← List.append_assoc, hold, List.append_assoc]

/-- Giving up a pool and shutting it down both tell the health checker to stop. -/
theorem stopping_after (hclosed : p.closed = false)
    (hstop : .abandon ∈ as ∨ (p.after as).closed = true) : (p.after as).stopping = true := by
  obtain hmem | hclosed' := hstop
  · obtain ⟨bs, cs, rfl⟩ := List.append_of_mem hmem
    rw [after_append]
    exact (abides_after ((p.after bs).act .abandon) cs).stopping rfl
  · refine ((abides_after p as).stops hclosed').resolve_left fun h => ?_
    rw [hclosed] at h
    cases h

/-- How the health checker keeps order in a run `as` of a pool, up to the slack that the pool allows
a sweep to be late without a change of its rhythm. -/
structure Disciplined (p : Pool) (as : List Action) : Prop where
  /-- Nothing starts while a recheck or a sweep is under way. -/
  alone : ∀ a, (p.after as).Starts a → (p.after as).checker.errand? = none
  /-- A recheck or a sweep is taken up as one that starts. -/
  takenUp : ∀ a, (p.after as).checker.errand? = none →
    ((p.after as).act a).checker.errand? ≠ none → (p.after as).Starts a
  /-- A check goes on, at its shard, until its verdict is settled. Only then is a recheck over, and
  is a sweep over or at a later shard. -/
  carried : ∀ a e, (p.after as).checker.errand? = some e →
    (∃ s, ((p.after as).act a).checker.errand? = some (e.at s) ∧ s.shard = e.inspection.shard) ∨
    (∃ reply, ((p.after as).resumeInspection e.inspection reply).2 = .done ()) ∧
      ∀ e', ((p.after as).act a).checker.errand? = some e' →
        ∃ s s', e = .sweep s ∧ e' = .sweep s' ∧ s.shard < s'.shard
  /-- No sweep starts within an interval of the start. -/
  first : ∀ t ∈ along sweeps p as, ∃ start ∈ along begins p as,
    start + p.config.healthCheckInterval ≤ t
  /-- Of any two sweeps the later one starts an interval after the other, or later. -/
  apart : (along sweeps p as).Pairwise fun t u => t + p.config.healthCheckInterval ≤ u + p.tickSlack
  /-- Suspects are rechecked in the order in which they were queued, each of them once. -/
  inOrder : (p.after as).checker ≠ .stopped →
    along rechecks p as ++ (p.after as).suspects = along signals p as
  /-- Suspects go before a sweep. -/
  suspectsFirst : ∀ a, (p.after as).sweeps a ≠ [] → (p.after as).suspects = []
  /-- Once the pool was given up or shut down, nothing starts. -/
  obeys : .abandon ∈ as ∨ (p.after as).closed = true → ∀ a, ¬(p.after as).Starts a

/-- The health checker of a pool keeps order whatever happens to the pool, whether or not it is a
run, and however long its checks take. -/
theorem checker_disciplined {config : Config} {addresses : List String} {now : Duration}
    (hcreate : create config addresses now = .ok p) (slack : Duration) (as : List Action) :
    Disciplined { p with tickSlack := slack } as := by
  obtain ⟨hconfig, -, hp⟩ := eq_of_create hcreate
  have hwell : p.config.WellFormed := by rwa [hp]
  have hspawned : p.checker = .spawned := by rw [hp]; rfl
  have hsuspects : p.suspects = [] := by rw [hp]; rfl
  have hclosed : p.closed = false := by rw [hp]; rfl
  clear hp
  let q : Pool := { p with tickSlack := slack }
  change Disciplined q as
  have hrhythm := rhythm_after (p := q) hspawned as
  constructor
  · intro a hstarts
    obtain ⟨⟨due, hwaiting⟩, -⟩ := hstarts.waiting
    rw [hwaiting]
    rfl
  · intro a hnone hsome
    refine starts_of_errand ?_ hnone hsome
    rw [(abides_after q as).config]
    exact hwell.interval
  · exact fun a e he => errand_act he a
  · exact hrhythm.first
  · exact hrhythm.apart
  · intro hstopped
    rw [rechecks_append_suspects_after q as hstopped]
    exact hsuspects ▸ rfl
  · intro a hsweeps
    obtain ⟨hnone, -⟩ | ⟨due, -, -, hsuspects, -⟩ := sweeps_act (q.after as) a
    · exact absurd hnone hsweeps
    · exact hsuspects
  · intro hstop a hstarts
    have htold := stopping_after (p := q) hclosed hstop
    rw [hstarts.waiting.2] at htold
    cases htold

/-- An overdue sweep waits for the recheck of a suspect, and the one after it for the sweep itself,
which is a slow one. -/
theorem checker_disciplined_late :
    ∃ p as, create { maxFails := 1 } ["a:1"] .zero = .ok p ∧
      along rechecks { p with tickSlack := .zero } as = [0] ∧
      along sweeps { p with tickSlack := .zero } as = [.ofSecs 10, .ofSecs 20] ∧
      Disciplined { p with tickSlack := .zero } as := by
  have hcreate : create { maxFails := 1 } ["a:1"] .zero = .ok _ := rfl
  let as : List Action := [.turn, .start .get, .resume 0 (.error .poolExhausted),
    .setTime (.ofSecs 10), .turn, .resumeChecker (.ok ()), .resumeChecker (.ok ()),
    .resumeChecker (.ok ()), .turn, .turn, .setTime (.ofSecs 20),
    .resumeChecker (.error .poolExhausted), .resumeChecker (.error .poolExhausted), .turn, .turn]
  exact ⟨_, as, hcreate, by decide, by decide, checker_disciplined hcreate .zero as⟩

end Run

end Pool

end QuorumPool
