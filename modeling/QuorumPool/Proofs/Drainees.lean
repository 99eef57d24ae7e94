import QuorumPool.Proofs.QueueOrder
import QuorumPool.Proofs.Shutdown

namespace QuorumPool

/-- The idle connection of shard `i` that the verdict's drain is closing. -/
def Verdict.drainee? (i : Nat) : Verdict → Option ConnId
  | deciding .. => none
  | draining j c _ => if j = i then some c else none

def Inspection.drainee? (i : Nat) : Inspection → Option ConnId
  | checking .. => none
  | judging v => v.drainee? i

def Closing.drainee? (i : Nat) : Closing → Option ConnId
  | queued | joining => none
  | draining j c _ => if j = i then some c else none

def Task.drainee? (i : Nat) : Task → Option ConnId
  | verdict v => v.drainee? i
  | shutdown s => s.drainee? i
  | get _ | put _ | strayPut | check _ => none

def Checker.drainee? (i : Nat) : Checker → Option ConnId
  | working _ e => e.inspection.drainee? i
  | spawned | waiting _ | stopped => none

/-- What is being closed while the activity waits; nothing once there is a result. -/
def Progress.drainee? {σ α : Type} (f : σ → Option ConnId) : Progress σ α → Option ConnId
  | waits s => f s
  | done _ => none

section IsSome

variable {i : Nat}

theorem Verdict.isSome_drainee? (v : Verdict) : (v.drainee? i).isSome = v.drains i := by
  cases v with
  | deciding => rfl
  | draining j c n => by_cases hji : j = i <;> simp [drainee?, drains, hji]

theorem Inspection.isSome_drainee? (s : Inspection) : (s.drainee? i).isSome = s.drains i := by
  cases s with
  | checking => rfl
  | judging v => exact v.isSome_drainee?

theorem Closing.isSome_drainee? (s : Closing) : (s.drainee? i).isSome = s.drains i := by
  cases s with
  | queued | joining => rfl
  | draining j c n => by_cases hji : j = i <;> simp [drainee?, drains, hji]

theorem Task.isSome_drainee? (t : Task) : (t.drainee? i).isSome = t.drains i := by
  cases t with
  | verdict v => exact v.isSome_drainee?
  | shutdown s => exact s.isSome_drainee?
  | get | put | strayPut | check => rfl

theorem Checker.isSome_drainee? (c : Checker) : (c.drainee? i).isSome = c.drains i := by
  cases c with
  | working due e => exact e.inspection.isSome_drainee?
  | spawned | waiting | stopped => rfl

end IsSome

namespace Pool

/-- The idle connection of shard `i` that the one given is closing to drain the shard. -/
def drainee? (p : Pool) (i : Nat) : Drainer → Option ConnId
  | .task id => (p.task? id).bind (·.drainee? i)
  | .checker => p.checker.drainee? i

variable {p q : Pool} {i j : Nat} {c : ConnId}

theorem isSome_drainee? (p : Pool) (i : Nat) (d : Drainer) :
    (p.drainee? i d).isSome = p.drainedBy i d := by
  cases d with
  | task id =>
    rw [drainee?, drainedBy]
    cases p.task? id with
    | none => rfl
    | some t => exact t.isSome_drainee?
  | checker => exact p.checker.isSome_drainee?

theorem drainedBy_eq_false_iff {d : Drainer} : p.drainedBy i d = false ↔ p.drainee? i d = none := by
  rw [← isSome_drainee?, Option.isSome_eq_false_iff, Option.isNone_iff_eq_none]

/-- What an activity takes from the queue of shard `i`, with a step from `p` to `q` that is no get's,
and what it has been closing `before` and is closing `after` the step. -/
structure Drainage (p q : Pool) (i : Nat) (before after : Option ConnId) : Prop where
  /-- What leaves the queue is being closed next. -/
  kept : ∀ c ∈ (p.shard i).idle, c ∈ (q.shard i).idle ∨ after = some c
  /-- A drain begins when the shard is retired. -/
  begins : before = none → after ≠ none → p.Retired q i

section Activity

theorem Drainage.of_idle (hidle : (q.shard i).idle = (p.shard i).idle) {before after : Option ConnId}
    (hafter : before = none → after = none) : Drainage p q i before after :=
  ⟨fun _ hc => .inl (hidle ▸ hc), fun hbefore h => absurd (hafter hbefore) h⟩

theorem Drainage.of_shards (hshards : q.shards = p.shards) {before after : Option ConnId}
    (hafter : before = none → after = none) : Drainage p q i before after :=
  .of_idle (by rw [shard, hshards, shard]) hafter

/-- The head of a queue is taken to be closed. -/
theorem kept_pop {d : ConnId} {rest : List ConnId} (hidle : (p.shard j).idle = d :: rest)
    (hc : c ∈ (p.shard i).idle) :
    c ∈ (((p.dropIdle j).count j Tally.countClose).shard i).idle ∨
      (if j = i then some d else none) = some c := by
  rw [count, idle_modifyShard (Shard.idle_count _), idle_dropIdle]
  split
  · rename_i hji
    subst hji
    rw [hidle] at hc ⊢
    exact (List.mem_cons.mp hc).symm.imp_right fun hcd => congrArg some hcd.symm
  · exact .inl hc

theorem kept_drain (n : Nat) (hc : c ∈ (p.shard i).idle) :
    c ∈ ((p.drain j n).1.shard i).idle ∨
      (p.drain j n).2.drainee? (Verdict.drainee? i) = some c := by
  unfold drain
  dsimp only
  split
  · exact kept_pop ‹_› hc
  · exact .inl hc

theorem drainee?_drain_of_ne (hji : j ≠ i) (n : Nat) :
    (p.drain j n).2.drainee? (Verdict.drainee? i) = none := by
  unfold drain
  dsimp only
  split
  · exact if_neg hji
  · rfl

theorem drainage_promote : Drainage p (p.promote j).1 i none
    ((p.promote j).2.drainee? (Verdict.drainee? i)) := by
  have hnone : (p.promote j).2.drainee? (Verdict.drainee? i) = none := by
    unfold promote
    split <;> rfl
  have hidle : ((p.promote j).1.shard i).idle = (p.shard i).idle := by
    unfold promote
    split
    · rfl
    · exact idle_modifyShard (p := { p with numAvailable := p.numAvailable + 1 }) (i := j)
        (f := fun s => { s with available := true }) (fun _ => rfl) i
  rw [hnone]
  exact .of_idle hidle id

theorem drainage_demote (hj : j < p.shards.length) : Drainage p (p.demote j).1 i none
    ((p.demote j).2.drainee? (Verdict.drainee? i)) := by
  unfold demote
  dsimp only
  split
  · exact .of_idle rfl id
  rename_i havailable
  split
  · exact ⟨fun _ hc => .inl hc, fun _ hafter => absurd rfl hafter⟩
  let out : Pool := { p with numAvailable := p.numAvailable - 1 }.modifyShard j
    fun s => { s with available := false }
  have hidle : (out.shard i).idle = (p.shard i).idle :=
    idle_modifyShard (p := { p with numAvailable := p.numAvailable - 1 }) (i := j)
      (f := fun s => { s with available := false }) (fun _ => rfl) i
  refine ⟨fun c hc => kept_drain 0 (hidle ▸ hc), fun _ hafter => ?_⟩
  by_cases hji : j = i
  · subst hji
    have hflag : (out.shard j).available = false := by
      rw [shard_modifyShard_self (p := { p with numAvailable := p.numAvailable - 1 }) hj]
    have hcounts := Does.drain (out.note (.demoted (p.shard j).address out.numAvailable)) j 0
    refine .inl ⟨by simpa using havailable, (hcounts.available j ?_ ?_).trans hflag⟩
    all_goals exact fun h => nomatch Progress.isCount_of_mem (fun v => v.isCount_of_mem) h
  · exact absurd (drainee?_drain_of_ne hji 0) hafter

theorem drainage_resumeVerdict {v : Verdict} (hv : v.shard < p.shards.length) (reply : Reply) :
    Drainage p (p.resumeVerdict v reply).1 i (v.drainee? i)
      ((p.resumeVerdict v reply).2.drainee? (Verdict.drainee? i)) := by
  cases v with
  | deciding j healthy =>
    cases healthy with
    | true => exact drainage_promote
    | false => exact drainage_demote hv
  | draining j d n =>
    have hquiet := quiet_noteIdleClose p j reply
    have hidle : (p.shard i).idle = ((p.noteIdleClose j reply).shard i).idle := by
      rw [shard, ← hquiet.shards, shard]
    refine ⟨fun c hc => kept_drain (n + 1) (hidle ▸ hc), fun hbefore hafter => ?_⟩
    by_cases hji : j = i
    · cases (if_pos hji).symm.trans hbefore
    · exact absurd (drainee?_drain_of_ne hji (n + 1)) hafter

theorem drainage_resumeInspection {s : Inspection} (hs : s.shard < p.shards.length)
    (reply : Reply) : Drainage p (p.resumeInspection s reply).1 i (s.drainee? i)
      ((p.resumeInspection s reply).2.drainee? (Inspection.drainee? i)) := by
  cases s with
  | checking j c =>
    obtain ⟨journal, hcheck⟩ := exists_resumeCheck_eq p c reply
    have hshards : (p.resumeCheck c reply).1.shards = p.shards := by rw [hcheck]
    unfold resumeInspection
    dsimp only
    split <;> rename_i heq <;> rw [heq] at hshards <;> exact .of_shards hshards fun _ => rfl
  | judging v =>
    have hverdict := drainage_resumeVerdict (i := i) (v := v) hs reply
    unfold resumeInspection
    dsimp only
    split <;> rename_i heq <;> rw [heq] at hverdict <;> exact hverdict

theorem drainee?_inspect : (p.inspect j).drainee? i = none := by
  unfold inspect
  split <;> rfl

theorem drainee?_sweepFrom :
    (p.sweepFrom j).drainee? (fun e => e.inspection.drainee? i) = none := by
  unfold sweepFrom
  split
  · exact drainee?_inspect
  · rfl

theorem drainage_resumeErrand {e : Errand} (he : e.inspection.shard < p.shards.length)
    (reply : Reply) : Drainage p (p.resumeErrand e reply).1 i (e.inspection.drainee? i)
      ((p.resumeErrand e reply).2.drainee? fun e => e.inspection.drainee? i) := by
  have hinspection := drainage_resumeInspection (i := i) he reply
  unfold resumeErrand
  rcases hr : p.resumeInspection e.inspection reply with ⟨q, s | _⟩ <;> rw [hr] at hinspection
  · cases e <;> exact hinspection
  · cases e with
    | recheck => exact hinspection
    | sweep => exact drainee?_sweepFrom.symm ▸ hinspection

private theorem kept_closeLast (left : Nat) (hc : c ∈ (p.shard i).idle) :
    c ∈ ((p.closeLast left).1.shard i).idle ∨
      (p.closeLast left).2.drainee? (Closing.drainee? i) = some c := by
  induction left generalizing p with
  | zero => exact .inl hc
  | succ left ih =>
    let q := p.modifyShard (p.shards.length - (left + 1)) fun s => { s with closed := true }
    have hidle : (q.shard i).idle = (p.shard i).idle :=
      idle_modifyShard (f := fun s => { s with closed := true }) (fun _ => rfl) i
    rw [← hidle] at hc
    unfold closeLast
    dsimp only
    split
    · exact kept_pop ‹_› hc
    · exact ih (p := q.note _) hc

theorem kept_resumeShutdown (s : Closing) (reply : Reply) (hc : c ∈ (p.shard i).idle) :
    c ∈ ((p.resumeShutdown s reply).1.shard i).idle ∨
      (p.resumeShutdown s reply).2.drainee? (Closing.drainee? i) = some c := by
  cases s with
  | queued =>
    unfold resumeShutdown enterShutdown
    dsimp only
    split
    · exact .inl hc
    · split <;> exact .inl hc
  | joining =>
    unfold resumeShutdown
    dsimp only
    split
    · exact kept_closeLast _ hc
    · exact .inl hc
  | draining j d n =>
    have hquiet := quiet_noteIdleClose p j reply
    have hidle : (p.shard i).idle = ((p.noteIdleClose j reply).shard i).idle := by
      rw [shard, ← hquiet.shards, shard]
    rw [hidle] at hc
    unfold resumeShutdown closeOn
    dsimp only
    split
    · exact kept_pop ‹_› hc
    · exact kept_closeLast (p := (p.noteIdleClose j reply).note _) _ hc

private theorem Progress.drainee?_map {σ α τ β : Type} {f : σ → Option ConnId}
    {f' : τ → Option ConnId} {g : σ → τ} {a : α → β} (hf : ∀ s, f' (g s) = f s) (w : Progress σ α) :
    (w.map g a).drainee? f' = w.drainee? f := by
  cases w with
  | waits s => exact hf s
  | done _ => rfl

/-- A task that is no get takes from a queue what it closes next. -/
theorem kept_advance {t : Task} (hget : ∀ g, t ≠ .get g)
    (hverdict : ∀ v, t = .verdict v → v.shard < p.shards.length) (reply : Reply)
    (hc : c ∈ (p.shard i).idle) : c ∈ ((p.advance t reply).1.shard i).idle ∨
      (p.advance t reply).2.drainee? (Task.drainee? i) = some c := by
  cases t with
  | get g => exact absurd rfl (hget g)
  | put d => exact .inl hc
  | strayPut => cases reply <;> exact .inl hc
  | verdict v =>
    change _ ∨ ((p.resumeVerdict v reply).2.map Task.verdict Answer.changed).drainee? _ = _
    rw [Progress.drainee?_map (f := Verdict.drainee? i) (g := Task.verdict) fun _ => rfl]
    exact (drainage_resumeVerdict (hverdict v rfl) reply).kept c hc
  | check d =>
    obtain ⟨journal, hcheck⟩ := exists_resumeCheck_eq p d reply
    refine .inl ?_
    change c ∈ ((p.resumeCheck d reply).1.shard i).idle
    rwa [hcheck]
  | shutdown s =>
    change _ ∨ ((p.resumeShutdown s reply).2.map Task.shutdown fun _ => Answer.shutDown).drainee? _ =
      _
    rw [Progress.drainee?_map (f := Closing.drainee? i) (g := Task.shutdown) fun _ => rfl]
    exact kept_resumeShutdown s reply hc

end Activity

section Act

theorem drainee?_setErrand (due : Duration) (w : Progress Errand Unit) :
    (p.setErrand due w).checker.drainee? i = w.drainee? fun e => e.inspection.drainee? i := by
  obtain ⟨journal, heq⟩ := exists_setErrand_eq p due w
  rw [heq]
  cases w <;> rfl

theorem drainage_errand (hwf : p.WellFormed) {due : Duration} {e : Errand}
    (hworking : p.checker = .working due e) (reply : Reply) :
    Drainage p ((p.resumeErrand e reply).1.setErrand due (p.resumeErrand e reply).2) i
      (p.checker.drainee? i)
      (((p.resumeErrand e reply).1.setErrand due
        (p.resumeErrand e reply).2).checker.drainee? i) := by
  have herrand := drainage_resumeErrand (i := i) (hwf.errand due e hworking) reply
  have hshard : ((p.resumeErrand e reply).1.setErrand due (p.resumeErrand e reply).2).shard i =
      (p.resumeErrand e reply).1.shard i := by
    rw [shard, shards_setErrand, shard]
  rw [drainee?_setErrand, hworking]
  refine ⟨fun c hc => ?_, fun hbefore hafter => ?_⟩
  · rw [hshard]
    exact herrand.kept c hc
  · rw [Retired, hshard]
    exact herrand.begins hbefore hafter

theorem drainage_turn (hwf : p.WellFormed) :
    Drainage p p.turn i (p.checker.drainee? i) (p.turn.checker.drainee? i) := by
  unfold turn
  split
  · exact .of_shards (by rfl) fun _ => rfl
  · split
    · exact .of_shards (by rfl) fun _ => rfl
    split
    · refine .of_shards (by rw [shards_setErrand]; rfl) fun _ => ?_
      rw [drainee?_setErrand]
      exact drainee?_inspect
    · split
      · refine .of_shards (shards_setErrand ..) fun _ => ?_
        rw [drainee?_setErrand]
        exact drainee?_sweepFrom
      · exact .of_shards rfl id
  · split
    · exact .of_shards rfl id
    · exact drainage_errand hwf ‹_› (.ok ())
  · exact .of_shards rfl id

theorem drainage_resumeChecker (hwf : p.WellFormed) (reply : Reply) :
    Drainage p (p.resumeChecker reply) i (p.checker.drainee? i)
      ((p.resumeChecker reply).checker.drainee? i) := by
  unfold resumeChecker
  split
  · split
    · exact drainage_errand hwf ‹_› reply
    · exact .of_shards rfl id
  · exact .of_shards rfl id

/-- What a step takes out of a queue a get has taken, or it is being drained. -/
theorem exists_drainee (hwf : p.WellFormed) (a : Action) (hc : c ∈ (p.shard i).idle)
    (hout : c ∉ ((p.act a).shard i).idle) :
    p.stepsGet a = true ∨ ∃ d, (p.act a).drainee? i d = some c := by
  have hsame : (p.act a).shards ≠ p.shards := fun h => hout (by rwa [shard, h, ← shard])
  cases a with
  | start request =>
    obtain ⟨tasks, nextTask, journal, hstart⟩ := exists_start_eq p request
    have hshards : (p.act (.start request)).shards = (p.begin request).1.shards := by
      change (p.start request).1.shards = _
      rw [hstart]
    cases request with
    | get => exact .inl rfl
    | put d broken =>
      cases hlent : p.isLent d with
      | true =>
        obtain hidle | ⟨-, hidle⟩ := (regains_put hwf hlent broken).idle i
        · exact absurd (hidle ▸ hc) hout
        · exact absurd (hidle ▸ List.mem_append_left _ hc) hout
      | false =>
        have hact : p.act (.start (.put d broken)) = p :=
          congrArg Prod.fst (start_put_of_not_lent hlent broken)
        exact absurd (congrArg shards hact) hsame
    | strayPut | mark | check => exact absurd hshards hsame
    | shutdown =>
      have hshutdown : p.shutdown.1.shards = p.shards := by
        unfold shutdown enterShutdown
        split
        · rfl
        · split <;> rfl
      exact absurd (hshards.trans hshutdown) hsame
  | resume id reply =>
    cases ht : p.task? id with
    | none =>
      have hact : p.act (.resume id reply) = p := by
        change (p.resume id reply).1 = p
        simp only [Pool.resume, ht]
      exact absurd (congrArg shards hact) hsame
    | some t =>
      by_cases hget : ∃ g, t = .get g
      · obtain ⟨g, rfl⟩ := hget
        exact .inl (by simp only [stepsGet, ht])
      have hverdict : ∀ v, t = .verdict v → v.shard < p.shards.length := by
        rintro v rfl
        exact hwf.verdicts id v (hwf.task?_eq_some_iff.mp ht)
      refine .inr ⟨.task id, ?_⟩
      change c ∉ ((p.resume id reply).1.shard i).idle at hout
      rw [shard, shards_resume ht reply] at hout
      have hafter := (kept_advance (not_exists.mp hget) hverdict reply hc).resolve_left hout
      cases hadvance : (p.advance t reply).2 with
      | waits t' =>
        rw [hadvance] at hafter
        change ((p.resume id reply).1.task? id).bind _ = _
        rwa [task?_resume hwf ht hadvance]
      | done _ =>
        rw [hadvance] at hafter
        cases hafter
  | turn => exact .inr ⟨.checker, ((drainage_turn hwf).kept c hc).resolve_left hout⟩
  | resumeChecker reply =>
    exact .inr ⟨.checker, ((drainage_resumeChecker hwf reply).kept c hc).resolve_left hout⟩
  | setTime | abandon => exact absurd rfl hsame
  | takeStats =>
    obtain ⟨t, ht⟩ := (recounted_takeStats p).shard i
    exact absurd ((congrArg Shard.idle ht).symm ▸ hc) hout
  | takeShardStats j =>
    obtain ⟨t, ht⟩ := (recounted_takeShardStats p j).shard i
    exact absurd ((congrArg Shard.idle ht).symm ▸ hc) hout

/-- A task that begins drains nothing yet. -/
theorem drainee?_of_begin {request : Request} {t : Task} (hbegin : (p.begin request).2 = .waits t) :
    t.drainee? i = none := by
  cases request with
  | get | put | check =>
    obtain ⟨_, -, rfl⟩ := Progress.map_eq_waits.mp hbegin
    rfl
  | strayPut => exact Progress.waits.inj hbegin ▸ rfl
  | mark j healthy =>
    obtain ⟨v, hv, rfl⟩ := Progress.map_eq_waits.mp hbegin
    unfold mark at hv
    split at hv
    · exact Progress.waits.inj hv ▸ rfl
    · cases hv
  | shutdown =>
    have hmap : p.shutdown.2.map Task.shutdown (fun _ => Answer.shutDown) = .waits t := hbegin
    obtain ⟨s, hs, rfl⟩ := Progress.map_eq_waits.mp hmap
    unfold shutdown enterShutdown at hs
    split at hs
    · exact Progress.waits.inj hs ▸ rfl
    split at hs
    · cases hs
    · exact Progress.waits.inj hs ▸ rfl

/-- The drain of a shutdown begins as the shard is shut. -/
theorem retired_of_shutdown (hcourse : p.Course p.closers) (hp : p.Untouched) {id : TaskId}
    {s s' : Closing} {reply : Reply} (hs : (id, .shutdown s) ∈ p.tasks)
    (hwaits : (p.resumeShutdown s reply).2 = .waits s') (hbefore : s.drainee? i = none)
    (hafter : s'.drainee? i = some c) : p.Retired (p.resumeShutdown s reply).1 i := by
  obtain ⟨n, rfl⟩ : ∃ n, s' = .draining i c n := by
    cases s' with
    | queued | joining => cases hafter
    | draining j d n =>
      obtain ⟨rfl, rfl⟩ : j = i ∧ d = c := by simpa [Closing.drainee?] using hafter
      exact ⟨n, rfl⟩
  by_cases hqueued : s = .queued
  · subst hqueued
    unfold resumeShutdown enterShutdown at hwaits
    dsimp only at hwaits
    split at hwaits
    · cases hwaits
    · split at hwaits <;> cases hwaits
  have hclosing : (Task.shutdown s).closing? = some s := by
    cases s with
    | queued => exact absurd rfl hqueued
    | joining | draining => rfl
  have hone : p.closers = [s] := by
    obtain ⟨pre, post, hsplit⟩ := List.append_of_mem
      (List.mem_filterMap.mpr ⟨_, hs, hclosing⟩ : s ∈ p.closers)
    rw [List.append_cons] at hsplit
    obtain ⟨rfl, rfl⟩ := (hsplit ▸ hcourse : p.Course (pre ++ [s] ++ post)).only
    exact hsplit
  have hworks : p.Works (p.resumeShutdown s reply) := .goesOn reply hone
  have hopen : (p.shard i).closed = false := by
    obtain hopen | ⟨d, m, hd⟩ := (hworks.eq_waits hcourse hp hwaits).2 i c n rfl
    · exact hopen
    · rw [hone, List.mem_singleton] at hd
      subst hd
      cases (if_pos rfl).symm.trans hbefore
  have hshut := (hworks.shuts hcourse).course
  rw [hwaits] at hshut
  cases hshut with
  | draining _ _ _ hclosed _ => exact .inr ⟨hopen, hclosed⟩

theorem retired_of_advance (hwf : p.WellFormed) (hcourse : p.Course p.closers) (hp : p.Untouched)
    {id : TaskId} {t t' : Task} {reply : Reply} (ht : (id, t) ∈ p.tasks)
    (hadvance : (p.advance t reply).2 = .waits t') (hbefore : t.drainee? i = none)
    (hafter : t'.drainee? i = some c) : p.Retired (p.advance t reply).1 i := by
  cases t with
  | get | check =>
    obtain ⟨_, -, rfl⟩ := Progress.map_eq_waits.mp hadvance
    cases hafter
  | put | strayPut => cases hadvance
  | verdict v =>
    have hmap : (p.resumeVerdict v reply).2.map Task.verdict Answer.changed = .waits t' := hadvance
    obtain ⟨v', hv', rfl⟩ := Progress.map_eq_waits.mp hmap
    refine (drainage_resumeVerdict (hwf.verdicts id v ht) reply).begins hbefore ?_
    rw [hv']
    exact Option.ne_none_iff_exists'.mpr ⟨c, hafter⟩
  | shutdown s =>
    have hmap : (p.resumeShutdown s reply).2.map Task.shutdown (fun _ => Answer.shutDown) =
        .waits t' := hadvance
    obtain ⟨s', hs', rfl⟩ := Progress.map_eq_waits.mp hmap
    exact retired_of_shutdown hcourse hp ht hs' hbefore hafter

/-- A drain begins with the action that retires the shard. -/
theorem retired_of_drainee (hwf : p.WellFormed) (hcourse : p.Course p.closers) (hp : p.Untouched)
    (a : Action) (d : Drainer) (hbefore : p.drainee? i d = none)
    (hafter : (p.act a).drainee? i d = some c) : p.Retired (p.act a) i := by
  have hsome : (p.act a).drainee? i d ≠ none := hafter ▸ nofun
  cases d with
  | task id =>
    obtain ⟨t, ht, hdrains⟩ := Option.bind_eq_some_iff.mp hafter
    have hmem := (hwf.act a).task?_eq_some_iff.mp ht
    obtain ⟨-, hold⟩ | ⟨reply, u, rfl, hu, hadvance⟩ | ⟨-, request, -, hbegin⟩ :=
      mem_tasks_act hwf hmem
    · rw [drainee?, hwf.task?_eq_some_iff.mpr hold, Option.bind_some, hdrains] at hbefore
      cases hbefore
    · have hutask := hwf.task?_eq_some_iff.mpr hu
      rw [drainee?, hutask, Option.bind_some] at hbefore
      have hretired := retired_of_advance hwf hcourse hp hu hadvance hbefore hdrains
      have hshard : (p.resume id reply).1.shard i = (p.advance u reply).1.shard i := by
        rw [shard, shards_resume hutask reply, shard]
      change p.Retired (p.resume id reply).1 i
      rwa [Retired, hshard]
    · rw [drainee?_of_begin hbegin] at hdrains
      cases hdrains
  | checker =>
    have hkept {q : Pool} (hq : (p.act a).checker = p.checker) : p.Retired q i := by
      rw [drainee?, hq] at hafter
      cases hafter.symm.trans hbefore
    cases a with
    | turn => exact (drainage_turn hwf).begins hbefore hsome
    | resumeChecker reply => exact (drainage_resumeChecker hwf reply).begins hbefore hsome
    | start request =>
      exact hkept ((aside_start p request).2.trans (leads_begin hwf request).moves.checker_eq)
    | resume id reply =>
      cases ht : p.task? id with
      | none =>
        refine hkept ?_
        change (p.resume id reply).1.checker = _
        simp only [Pool.resume, ht]
      | some t =>
        have hverdict : ∀ v, t = .verdict v → v.shard < p.shards.length := by
          rintro v rfl
          exact hwf.verdicts id v (hwf.task?_eq_some_iff.mp ht)
        exact hkept ((aside_resume ht reply).2.trans
          (leads_advance hwf.shards hverdict reply).moves.checker_eq)
    | setTime | abandon | takeStats | takeShardStats => exact hkept rfl

end Act

end Pool

end QuorumPool
