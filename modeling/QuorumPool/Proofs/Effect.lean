import QuorumPool.Proofs.Activity
import QuorumPool.Proofs.Run

namespace QuorumPool.Pool

/-- Hands a connection that is to be closed to the factory. -/
def handOver (p : Pool) : Hand → Pool
  | .closing c => p.ask (.close (.own c))
  | _ => p

/-- Two pools that differ only in what their shards have counted. -/
structure Recounted (p q : Pool) : Prop where
  config : q.config = p.config
  length_shards : q.shards.length = p.shards.length
  shard : ∀ i, ∃ t, q.shard i = (p.shard i).count fun _ => t
  conns : q.conns = p.conns
  numAvailable : q.numAvailable = p.numAvailable
  now : q.now = p.now
  closeCalls : ∀ c, q.closeCalls c = p.closeCalls c

/-- What an action comes to that neither reads the statistics nor moves the clock: an activity takes
up what it had in hand, if it had waited, makes its changes, and waits again or is finished. -/
inductive Work (p r : Pool) : Prop
  | intro {h k : Hand} {hs : List Hand} {q : Pool}
      (taken : p.held.Perm (h :: hs) ∨ h = .free ∧ p.held = hs)
      (moves : Moves p h q k) (parks : k.Parks p.config) (alike : (q.handOver k).Alike r)
      (left : r.held.Perm (k.parked :: hs) ∨ k.parked = .free ∧ r.held.Perm hs)

/-- What an action comes to. -/
inductive Effect (p r : Pool) : Prop
  /-- An activity takes up what it had in hand, if it had waited, makes its changes, and waits again
  or is finished. -/
  | work {h k : Hand} {hs : List Hand} {q : Pool}
      (taken : p.held.Perm (h :: hs) ∨ h = .free ∧ p.held = hs)
      (moves : Moves p h q k) (parks : k.Parks p.config) (alike : (q.handOver k).Alike r)
      (left : r.held.Perm (k.parked :: hs) ∨ k.parked = .free ∧ r.held.Perm hs)
  | tick {now : Duration} (le : p.now ≤ now) (eq : r = p.setTime now)
  | recount (recounted : p.Recounted r) (held : r.held = p.held)

/-- A property that every work keeps. It speaks of the pool, of what the activity at work has in
hand, and of what the waiting tasks hold, in no particular order. -/
structure Steady (I : Pool → Hand → List Hand → Prop) : Prop where
  perm : ∀ {p h hs hs'}, hs.Perm hs' → I p h hs → I p h hs'
  alike : ∀ {p q h hs}, p.Alike q → I p h hs → I q h hs
  move : ∀ {p q h k hs}, Move (p, h) (q, k) → I p h hs → I q k hs
  take : ∀ {p h hs}, I p .free (h :: hs) → I p h hs
  park : ∀ {p h hs}, h.Parks p.config → I p h hs → I (p.handOver h) .free (h.parked :: hs)

/-- A property that every effect keeps. -/
structure Invariant (I : Pool → Hand → List Hand → Prop) : Prop extends Steady I where
  tick : ∀ {p now hs}, p.now ≤ now → I p .free hs → I (p.setTime now) .free hs
  recount : ∀ {p q hs}, p.Recounted q → I p .free hs → I q .free hs

theorem Work.effect {p r : Pool} (hwork : Work p r) : Effect p r := by
  obtain ⟨taken, moves, parks, alike, left⟩ := hwork
  exact .work taken moves parks alike left

theorem Steady.work {I : Pool → Hand → List Hand → Prop} (hI : Steady I) {p r : Pool}
    (hwork : Work p r) (hp : I p .free p.held) : I r .free r.held := by
  obtain @⟨h, k, hs, q, taken, moves, parks, alike, left⟩ := hwork
  have htaken : I p h hs := by
    obtain hperm | ⟨rfl, rfl⟩ := taken
    · exact hI.take (hI.perm hperm hp)
    · exact hp
  have hmoved : I q k hs :=
    moves.keeps (I := fun q k => I q k hs) (fun _ _ _ _ hmove => hI.move hmove) htaken
  have hparked := hI.alike alike (hI.park (moves.config_eq ▸ parks) hmoved)
  obtain hperm | ⟨hfree, hperm⟩ := left
  · exact hI.perm hperm.symm hparked
  · rw [hfree] at hparked
    exact hI.perm hperm.symm (hI.take hparked)

theorem Invariant.effect {I : Pool → Hand → List Hand → Prop} (hI : Invariant I) {p r : Pool}
    (heffect : Effect p r) (hp : I p .free p.held) : I r .free r.held := by
  cases heffect with
  | work taken moves parks alike left =>
    exact hI.toSteady.work ⟨taken, moves, parks, alike, left⟩ hp
  | tick le eq =>
    subst eq
    exact hI.tick le hp
  | recount recounted held =>
    rw [held]
    exact hI.recount recounted hp

/-- There are shards, and connections and suspects name some of them. -/
structure InRange (p : Pool) : Prop where
  shards : 0 < p.shards.length
  conns : ∀ conn ∈ p.conns, conn.shard < p.shards.length
  suspects : ∀ i ∈ p.suspects, i < p.shards.length

/-- What holds the parts of a pool together: whatever names a shard names one of the pool's, and
every task has a name of its own. -/
structure WellFormed (p : Pool) : Prop extends InRange p where
  verdicts : ∀ id v, (id, Task.verdict v) ∈ p.tasks → v.shard < p.shards.length
  errand : ∀ due e, p.checker = .working due e → e.inspection.shard < p.shards.length
  ids : (p.tasks.map Prod.fst).Nodup
  fresh : ∀ x ∈ p.tasks, x.1 < p.nextTask

section Tasks

variable {p : Pool} {n : Nat}

theorem leads_begin (hwf : p.WellFormed) (request : Request) :
    Leads p .free (Task.hand p.shards.length) (p.begin request) := by
  cases request with
  | get => exact (leads_get hwf.shards).map fun _ => rfl
  | put c broken => exact (leads_put hwf.conns c broken).map fun _ => rfl
  | strayPut => exact .still rfl
  | mark i healthy =>
    refine .still ?_
    unfold mark
    split <;> rfl
  | check address =>
    refine .still ?_
    unfold check nextAttempt
    split <;> rfl
  | shutdown => exact leads_shutdown.map fun _ => rfl

theorem leads_advance (hpos : 0 < p.shards.length) {t : Task}
    (hverdict : ∀ v, t = .verdict v → v.shard < p.shards.length) (reply : Reply) :
    Leads p (t.hand p.shards.length).parked (Task.hand p.shards.length) (p.advance t reply) := by
  cases t with
  | get g => exact (leads_resumeGet hpos g reply).map fun _ => rfl
  | put c => exact .done .refl
  | strayPut =>
    cases reply with
    | ok _ => exact .done .refl
    | error e => exact .done (.note _)
  | verdict v => exact (leads_resumeVerdict (hverdict v rfl) reply).map fun _ => rfl
  | check c => exact (leads_resumeCheck c reply).map fun _ => rfl
  | shutdown s => exact (leads_resumeShutdown s reply).map fun _ => rfl

theorem alike_ask {c : Call} (hc : ∀ d, c ≠ .close (.own d)) : p.Alike (p.ask c) :=
  ⟨rfl, rfl, rfl, rfl, rfl, fun d => by simp [closeCalls, ask, hc d]⟩

theorem Alike.handOver {q : Pool} (halike : p.Alike q) (h : Hand) :
    (p.handOver h).Alike (q.handOver h) := by
  cases h with
  | closing c =>
    refine ⟨halike.config, halike.shards, halike.conns, halike.numAvailable, halike.now,
      fun d => ?_⟩
    have hcalls := halike.closeCalls d
    unfold Pool.closeCalls at hcalls ⊢
    simp only [Pool.handOver, ask, List.count_cons, hcalls]
  | _ => exact halike

/-- A task that comes to wait hands over what it has in hand, and asks for nothing else that bears
on connections. -/
theorem alike_askFor (p : Pool) (t : Task) (n : Nat) :
    (p.handOver (t.hand n)).Alike (p.askFor t) := by
  have hnone : p.Alike p := Quiet.refl.toAlike
  cases t with
  | get g =>
    obtain ⟨start, attempt, borrowing⟩ := g
    cases borrowing with
    | discarding c => exact Quiet.refl.toAlike
    | validating c => exact alike_ask (by simp)
    | dialing => exact alike_ask (by simp)
  | put c => exact Quiet.refl.toAlike
  | strayPut => exact alike_ask (by simp)
  | verdict v =>
    cases v with
    | deciding i healthy => exact hnone
    | draining i c drained => exact Quiet.refl.toAlike
  | check c =>
    apply alike_ask
    intro d
    unfold Check.call
    split <;> simp
  | shutdown s =>
    cases s with
    | queued | joining => exact hnone
    | draining i c drained => exact Quiet.refl.toAlike

/-- Asking for a task's call changes the journal only. -/
theorem exists_askFor_eq (p : Pool) (t : Task) : ∃ j, p.askFor t = { p with journal := j } := by
  unfold askFor
  split
  · exact ⟨_, rfl⟩
  · exact ⟨_, rfl⟩

/-- Beginning a request changes what its activity does, and the list of tasks and the journal. -/
theorem exists_start_eq (p : Pool) (request : Request) : ∃ tasks nextTask journal,
    (p.start request).1 = { (p.begin request).1 with tasks, nextTask, journal } := by
  unfold start
  rcases p.begin request with ⟨q, t | a⟩
  · exact ⟨_, _, exists_askFor_eq _ t⟩
  · exact ⟨q.tasks, q.nextTask, q.journal, rfl⟩

theorem exists_resume_eq {id : TaskId} {t : Task} (ht : p.task? id = some t) (reply : Reply) :
    ∃ tasks journal,
      (p.resume id reply).1 = { (p.advance t reply).1 with tasks, journal } := by
  simp only [resume, ht]
  rcases p.advance t reply with ⟨q, t' | a⟩
  · exact ⟨_, exists_askFor_eq _ t'⟩
  · exact ⟨_, q.journal, rfl⟩

/-- The tasks before and after a task in flight have other names. -/
theorem WellFormed.ne_of_tasks_eq (hwf : p.WellFormed) {id : TaskId} {t : Task}
    {pre post : List (TaskId × Task)} (htasks : p.tasks = pre ++ (id, t) :: post) :
    ∀ x ∈ pre ++ post, x.1 ≠ id := by
  intro x hx
  have hids := hwf.ids
  rw [htasks, List.map_append, List.map_cons, List.nodup_append] at hids
  obtain ⟨_, hpost, hdisjoint⟩ := hids
  obtain hx | hx := List.mem_append.mp hx
  · intro hid
    exact hdisjoint x.1 (List.mem_map_of_mem hx) id List.mem_cons_self hid
  · intro hid
    have hmem : x.1 ∈ post.map Prod.fst := List.mem_map_of_mem hx
    exact (List.nodup_cons.mp hpost).1 (hid ▸ hmem)

theorem WellFormed.exists_tasks_eq (hwf : p.WellFormed) {id : TaskId} {t : Task}
    (ht : p.task? id = some t) :
    ∃ pre post, p.tasks = pre ++ (id, t) :: post ∧ ∀ x ∈ pre ++ post, x.1 ≠ id := by
  obtain ⟨pre, post, htasks, hpre⟩ := List.lookup_eq_some_iff.mp ht
  exact ⟨pre, post, htasks, hwf.ne_of_tasks_eq htasks⟩

theorem WellFormed.task?_eq (hwf : p.WellFormed) {id : TaskId} {t : Task}
    {pre post : List (TaskId × Task)} (htasks : p.tasks = pre ++ (id, t) :: post) :
    p.task? id = some t := by
  refine List.lookup_eq_some_iff.mpr ⟨pre, post, htasks, fun x hx => ?_⟩
  simpa using (hwf.ne_of_tasks_eq htasks x (List.mem_append_left _ hx)).symm

theorem filter_tasks {id : TaskId} {t : Task} {pre post : List (TaskId × Task)}
    (hother : ∀ x ∈ pre ++ post, x.1 ≠ id) :
    (pre ++ (id, t) :: post).filter (·.1 != id) = pre ++ post := by
  have hkeep : (pre ++ post).filter (·.1 != id) = pre ++ post :=
    List.filter_eq_self.mpr fun x hx => by simpa using hother x hx
  simpa using hkeep

theorem map_tasks {id : TaskId} {t t' : Task} {pre post : List (TaskId × Task)}
    (hother : ∀ x ∈ pre ++ post, x.1 ≠ id) :
    ((pre ++ (id, t) :: post).map fun (i, u) => if i = id then (i, t') else (i, u)) =
      pre ++ (id, t') :: post := by
  have hkeep : ∀ l : List (TaskId × Task), (∀ x ∈ l, x.1 ≠ id) →
      (l.map fun (i, u) => if i = id then (i, t') else (i, u)) = l := by
    intro l hl
    refine (List.map_congr_left fun x hx => ?_).trans (List.map_id l)
    simp [hl x hx]
  simp only [List.map_append, List.map_cons, if_true]
  rw [hkeep pre fun x hx => hother x (List.mem_append_left _ hx),
    hkeep post fun x hx => hother x (List.mem_append_right _ hx)]

theorem held_eq_of_tasks_eq {p q : Pool} (htasks : q.tasks = p.tasks)
    (hlen : q.shards.length = p.shards.length) : q.held = p.held := by
  unfold held
  rw [htasks, hlen]

theorem held_askFor (p : Pool) (t : Task) : (p.askFor t).held = p.held := by
  obtain ⟨j, hj⟩ := exists_askFor_eq p t
  rw [hj]
  rfl

theorem work_start (hwf : p.WellFormed) (request : Request) : Work p (p.start request).1 := by
  have hleads := leads_begin hwf request
  unfold start
  rcases hbegin : p.begin request with ⟨q, t | a⟩ <;> rw [hbegin] at hleads
  · have hmoves : Moves p .free q (t.hand p.shards.length) := hleads.moves
    let q' : Pool := { q with tasks := q.tasks ++ [(q.nextTask, t)], nextTask := q.nextTask + 1 }
    have halike : q.Alike q' := ⟨rfl, rfl, rfl, rfl, rfl, fun _ => rfl⟩
    have hheld : q'.held = p.held ++ [(t.hand p.shards.length).parked] := by
      have htasks : q'.tasks = p.tasks ++ [(q.nextTask, t)] := by rw [← hmoves.tasks_eq]
      unfold held
      rw [htasks, show q'.shards.length = p.shards.length from hmoves.length_shards]
      simp
    refine .intro (.inr ⟨rfl, rfl⟩) hmoves hleads.parks
      ((halike.handOver _).trans (alike_askFor q' t _)) (.inl ?_)
    change (q'.askFor t).held.Perm _
    rw [held_askFor, hheld]
    exact List.perm_append_singleton _ _
  · have hmoves : Moves p .free q .free := hleads.moves
    exact .intro (.inr ⟨rfl, rfl⟩) hmoves trivial Quiet.refl.toAlike
      (.inr ⟨rfl, .of_eq (held_eq_of_tasks_eq hmoves.tasks_eq hmoves.length_shards)⟩)

theorem work_resume (hwf : p.WellFormed) (id : TaskId) (reply : Reply) :
    Work p (p.resume id reply).1 := by
  unfold resume
  split
  · exact .intro (.inr ⟨rfl, rfl⟩) .refl trivial Quiet.refl.toAlike (.inr ⟨rfl, .refl _⟩)
  rename_i t ht
  obtain ⟨pre, post, hsplit, hother⟩ := hwf.exists_tasks_eq ht
  have hverdict : ∀ v, t = .verdict v → v.shard < p.shards.length := by
    rintro v rfl
    exact hwf.verdicts id v (hsplit ▸ by simp)
  -- What the task holds is taken up from among what all hold, in whatever order that stands.
  have htaken : p.held.Perm ((t.hand p.shards.length).parked ::
      (pre ++ post).map fun x => (x.2.hand p.shards.length).parked) := by
    unfold held
    rw [hsplit, List.map_append, List.map_cons, List.map_append]
    exact List.perm_middle
  have hleads := leads_advance hwf.shards hverdict reply
  rcases hadvance : p.advance t reply with ⟨q, t' | a⟩ <;> rw [hadvance] at hleads
  · have hmoves : Moves p (t.hand p.shards.length).parked q (t'.hand p.shards.length) :=
      hleads.moves
    let q' : Pool :=
      { q with tasks := q.tasks.map fun (i, u) => if i = id then (i, t') else (i, u) }
    have halike : q.Alike q' := ⟨rfl, rfl, rfl, rfl, rfl, fun _ => rfl⟩
    have htasks : q'.tasks = pre ++ (id, t') :: post := by
      rw [← map_tasks hother (t := t), ← hsplit, ← hmoves.tasks_eq]
    refine .intro (.inl htaken) hmoves hleads.parks
      ((halike.handOver _).trans (alike_askFor q' t' _)) (.inl ?_)
    change (q'.askFor t').held.Perm _
    rw [held_askFor]
    unfold held
    rw [htasks, show q'.shards.length = p.shards.length from hmoves.length_shards,
      List.map_append, List.map_cons, List.map_append]
    exact List.perm_middle
  · have hmoves : Moves p (t.hand p.shards.length).parked q .free := hleads.moves
    have halike : q.Alike { q with tasks := q.tasks.filter (·.1 != id) } :=
      ⟨rfl, rfl, rfl, rfl, rfl, fun _ => rfl⟩
    refine .intro (.inl htaken) hmoves trivial halike (.inr ⟨rfl, .of_eq ?_⟩)
    simp only [held, hmoves.length_shards, hmoves.tasks_eq, hsplit, filter_tasks hother]

end Tasks

section Checker

variable {p : Pool}

theorem fst_resumeInspection_checking (i : Nat) (c : Check) (reply : Reply) :
    (p.resumeInspection (.checking i c) reply).1 = (p.resumeCheck c reply).1 := by
  simp only [resumeInspection]
  rcases p.resumeCheck c reply with ⟨q, w | b⟩ <;> rfl

theorem fst_resumeInspection_judging (v : Verdict) (reply : Reply) :
    (p.resumeInspection (.judging v) reply).1 = (p.resumeVerdict v reply).1 := by
  simp only [resumeInspection]
  rcases p.resumeVerdict v reply with ⟨q, w | b⟩ <;> rfl

theorem fst_resumeErrand (e : Errand) (reply : Reply) :
    (p.resumeErrand e reply).1 = (p.resumeInspection e.inspection reply).1 := by
  unfold resumeErrand
  rcases p.resumeInspection e.inspection reply with ⟨q, s | _⟩ <;> cases e <;> rfl

/-- The health checker holds nothing over a wait. -/
theorem parked_hand_inspection (s : Inspection) : s.hand.parked = .free := by
  cases s with
  | checking i c => rfl
  | judging v => cases v <;> rfl

theorem hand_inspect (p : Pool) (i : Nat) : (p.inspect i).hand = .free := by
  unfold inspect
  split <;> rfl

theorem leads_sweepFrom (p : Pool) (i : Nat) :
    Leads p .free (fun e => e.inspection.hand) (p, p.sweepFrom i) := by
  refine .still ?_
  unfold sweepFrom
  split
  · exact hand_inspect p _
  · rfl

theorem leads_resumeErrand {e : Errand} (hi : e.inspection.shard < p.shards.length)
    (reply : Reply) :
    Leads p .free (fun e => e.inspection.hand) (p.resumeErrand e reply) := by
  have hleads := leads_resumeInspection hi reply
  rw [parked_hand_inspection] at hleads
  unfold resumeErrand
  rcases hresume : p.resumeInspection e.inspection reply with ⟨q, s | _⟩ <;> rw [hresume] at hleads
  · cases e with
    | recheck _ => exact ⟨hleads.moves, hleads.parks⟩
    | sweep _ => exact ⟨hleads.moves, hleads.parks⟩
  · cases e with
    | recheck _ => exact .done hleads.moves
    | sweep _ => exact (leads_sweepFrom q _).after_moves hleads.moves

private theorem alike_askInspection (p : Pool) (s : Inspection) :
    (p.handOver s.hand).Alike
      (match s.call? with
        | some call => p.ask call
        | none => p) := by
  cases s with
  | checking i c =>
    apply alike_ask
    intro d
    unfold Check.call
    split <;> simp
  | judging v => cases v <;> exact Quiet.refl.toAlike

private theorem alike_setErrand (p : Pool) (due : Duration) (w : Progress Errand Unit) :
    (p.handOver (w.hand fun e => e.inspection.hand)).Alike (p.setErrand due w) := by
  cases w with
  | done _ => exact ⟨rfl, rfl, rfl, rfl, rfl, fun _ => rfl⟩
  | waits e =>
    have halike : p.Alike { p with checker := .working due e } :=
      ⟨rfl, rfl, rfl, rfl, rfl, fun _ => rfl⟩
    exact (halike.handOver _).trans (alike_askInspection _ e.inspection)

theorem tasks_setErrand (p : Pool) (due : Duration) (w : Progress Errand Unit) :
    (p.setErrand due w).tasks = p.tasks := by
  unfold setErrand
  split
  · split <;> rfl
  · rfl

/-- The health checker goes on with an errand. -/
theorem work_setErrand {due : Duration} {r : Pool × Progress Errand Unit}
    (hleads : Leads p .free (fun e => e.inspection.hand) r) :
    Work p (r.1.setErrand due r.2) := by
  obtain ⟨q, w⟩ := r
  have halike := alike_setErrand q due w
  refine .intro (.inr ⟨rfl, rfl⟩) hleads.moves hleads.parks halike (.inr ⟨?_, .of_eq ?_⟩)
  · cases w with
    | waits e => exact parked_hand_inspection e.inspection
    | done _ => rfl
  · have hlen : (q.setErrand due w).shards.length = q.shards.length := by
      rw [halike.shards]
      cases (w.hand fun e => e.inspection.hand) <;> rfl
    exact (held_eq_of_tasks_eq (tasks_setErrand q due w) hlen).trans
      (held_eq_of_tasks_eq hleads.moves.tasks_eq hleads.moves.length_shards)

theorem work_of_alike {q : Pool} (halike : p.Alike q) (htasks : q.tasks = p.tasks) :
    Work p q :=
  .intro (.inr ⟨rfl, rfl⟩) .refl trivial halike
    (.inr ⟨rfl, .of_eq (held_eq_of_tasks_eq htasks (by rw [halike.shards]))⟩)

theorem work_turn (hwf : p.WellFormed) : Work p p.turn := by
  unfold turn
  split
  · exact work_of_alike ⟨rfl, rfl, rfl, rfl, rfl, fun c => by simp [closeCalls, note]⟩ rfl
  · rename_i due _
    split
    · exact work_of_alike ⟨rfl, rfl, rfl, rfl, rfl, fun c => by simp [closeCalls, note]⟩ rfl
    split
    · rename_i i rest hsuspects
      let q : Pool := { p with suspects := rest }.note (.checkingSuspect (p.shard i).address)
      have hquiet : p.Quiet q :=
        ⟨⟨rfl, rfl, rfl, rfl, rfl, fun c => by simp [q, closeCalls, note]⟩, rfl, rfl, rfl,
          fun j hj => .inl (hsuspects ▸ List.mem_cons_of_mem i hj)⟩
      have hleads : Leads q .free (fun e : Errand => e.inspection.hand)
          (q, (.waits (.recheck (q.inspect i)) : Progress Errand Unit)) :=
        .still (hand_inspect q i)
      exact work_setErrand (hleads.after_moves (.quiet hquiet))
    · split
      · exact work_setErrand (leads_sweepFrom p 0)
      · exact work_of_alike Quiet.refl.toAlike rfl
  · rename_i due e hchecker
    split
    · exact work_of_alike Quiet.refl.toAlike rfl
    · exact work_setErrand (leads_resumeErrand (hwf.errand due e hchecker) (.ok ()))
  · exact work_of_alike Quiet.refl.toAlike rfl

theorem work_resumeChecker (hwf : p.WellFormed) (reply : Reply) :
    Work p (p.resumeChecker reply) := by
  unfold resumeChecker
  split
  · rename_i due e hchecker
    split
    · exact work_setErrand (leads_resumeErrand (hwf.errand due e hchecker) reply)
    · exact work_of_alike Quiet.refl.toAlike rfl
  · exact work_of_alike Quiet.refl.toAlike rfl

end Checker

theorem recounted_takeStats (p : Pool) : p.Recounted p.takeStats.1 where
  config := rfl
  length_shards := by simp [takeStats]
  shard i := by
    refine ⟨{}, ?_⟩
    by_cases hi : i < p.shards.length
    · simp [takeStats, shard, List.getD_eq_getElem?_getD, hi]
    · simp [takeStats, shard, List.getD_eq_getElem?_getD, hi]
      rfl
  conns := rfl
  numAvailable := rfl
  now := rfl
  closeCalls _ := rfl

theorem recounted_takeShardStats (p : Pool) (i : Nat) : p.Recounted (p.takeShardStats i).1 where
  config := rfl
  length_shards := length_shards_count
  shard j := by
    by_cases hi : i < p.shards.length
    · by_cases hij : i = j
      · exact ⟨{}, by simp [takeShardStats, Pool.count, ← hij, shard_modifyShard_self hi]⟩
      · exact ⟨(p.shard j).tally, shard_modifyShard_of_ne hij⟩
    · refine ⟨(p.shard j).tally, ?_⟩
      rw [takeShardStats, Pool.count, modifyShard_of_length_le (Nat.le_of_not_lt hi)]
      rfl
  conns := rfl
  numAvailable := rfl
  now := rfl
  closeCalls _ := rfl

/-- Every action of a well-formed pool comes to one of the effects. -/
theorem effect_act {p : Pool} (hwf : p.WellFormed) {a : Action} (hadmits : p.Admits a) :
    Effect p (p.act a) := by
  cases a with
  | start request => exact (work_start hwf request).effect
  | resume id reply => exact (work_resume hwf id reply).effect
  | turn => exact (work_turn hwf).effect
  | resumeChecker reply => exact (work_resumeChecker hwf reply).effect
  | setTime now => exact .tick hadmits rfl
  | takeStats =>
    have hrecounted := recounted_takeStats p
    exact .recount hrecounted (held_eq_of_tasks_eq rfl hrecounted.length_shards)
  | takeShardStats i =>
    have hrecounted := recounted_takeShardStats p i
    exact .recount hrecounted (held_eq_of_tasks_eq rfl hrecounted.length_shards)
  | abandon =>
    have hwork : Work p p.abandon := work_of_alike ⟨rfl, rfl, rfl, rfl, rfl, fun _ => rfl⟩ rfl
    exact hwork.effect

end QuorumPool.Pool
