import Mathlib.Data.List.Induction
import QuorumPool.Proofs.Availability
import QuorumPool.Proofs.Tasks

namespace QuorumPool.Pool

variable {p q : Pool} {i j : Nat} {healthy : Bool}

/-- Whether a verdict on shard `i` changes its flag when it is decided now. -/
def flips (p : Pool) (i : Nat) (healthy : Bool) : Bool :=
  if healthy then !(p.shard i).available
  else (p.shard i).available && p.config.quorum.permitsDemotion p.numAvailable p.shards.length

private theorem available_modifyShard {f : Shard → Shard} (hf : ∀ s, (f s).available = s.available)
    (j : Nat) : ((p.modifyShard i f).shard j).available = (p.shard j).available :=
  aspect_modifyShard (g := Shard.available) hf j

private theorem available_drain (drained j : Nat) :
    ((p.drain i drained).1.shard j).available = (p.shard j).available := by
  unfold drain
  dsimp only
  split
  · have hcount : ∀ j, (((p.dropIdle i).count i Tally.countClose).shard j).available =
        ((p.dropIdle i).shard j).available := available_modifyShard fun _ => rfl
    have hdrop : ∀ j, ((p.dropIdle i).shard j).available = (p.shard j).available :=
      available_modifyShard fun _ => rfl
    exact (hcount j).trans (hdrop j)
  · rfl

/-- A drain that goes on does so at its shard, and one that ends answers that the flag was
changed. -/
theorem drain_snd (drained : Nat) :
    (p.drain i drained).2 = .done true ∨
      ∃ c, (p.drain i drained).2 = .waits (.draining i c drained) := by
  unfold drain
  dsimp only
  split
  · exact .inr ⟨_, rfl⟩
  · exact .inl rfl

/-- A decision changes the flag of its shard or leaves it, changes no other one, and answers or goes
on accordingly. -/
structure Decides (p : Pool) (i : Nat) (healthy : Bool) (r : Pool × Progress Verdict Bool) :
    Prop where
  flag : ∀ j, (r.1.shard j).available =
    if i = j then (p.shard j).available ^^ p.flips j healthy else (p.shard j).available
  answer : r.2 = .done (p.flips i healthy) ∨
    p.flips i healthy = true ∧ ∃ c, r.2 = .waits (.draining i c 0)

/-- A decision that changes no flag. -/
theorem Decides.still {r : Pool × Progress Verdict Bool} (hshards : r.1.shards = p.shards)
    (hanswer : r.2 = .done false) (hflips : p.flips i healthy = false) :
    Decides p i healthy r := by
  refine ⟨fun j => ?_, .inl (by rw [hanswer, hflips])⟩
  rw [shard, hshards, ← shard]
  split
  · rename_i hij
    rw [← hij, hflips, Bool.xor_false]
  · rfl

theorem decides_promote (hi : i < p.shards.length) : Decides p i true (p.promote i) := by
  unfold promote
  split
  · rename_i havailable
    exact .still rfl rfl (by simp [flips, havailable])
  · rename_i havailable
    rw [Bool.not_eq_true] at havailable
    have hflips : p.flips i true = true := by simp [flips, havailable]
    refine ⟨fun j => ?_, .inl (by rw [hflips])⟩
    have hshard := shard_modifyShard (p := { p with numAvailable := p.numAvailable + 1 })
      (f := fun s => { s with available := true }) hi j
    change ((({ p with numAvailable := p.numAvailable + 1 } : Pool).modifyShard i
      fun s => { s with available := true }).shard j).available = _
    rw [hshard]
    split
    · rename_i hij
      rw [← hij, hflips, havailable]
      rfl
    · rfl

theorem decides_demote (hi : i < p.shards.length) : Decides p i false (p.demote i) := by
  unfold demote
  dsimp only
  split
  · rename_i havailable
    have hflips : p.flips i false = false := by
      rw [Bool.not_eq_true'] at havailable
      simp [flips, havailable]
    exact .still rfl rfl hflips
  rename_i havailable
  rw [Bool.not_eq_true', Bool.not_eq_false] at havailable
  split
  · rename_i hpermits
    have hflips : p.flips i false = false := by
      rw [Bool.not_eq_true'] at hpermits
      simp [flips, hpermits]
    exact .still rfl rfl hflips
  rename_i hpermits
  rw [Bool.not_eq_true', Bool.not_eq_false] at hpermits
  have hflips : p.flips i false = true := by simp [flips, havailable, hpermits]
  refine ⟨fun j => ?_, ?_⟩
  · have hshard := shard_modifyShard (p := { p with numAvailable := p.numAvailable - 1 })
      (f := fun s => { s with available := false }) hi j
    rw [available_drain]
    change ((({ p with numAvailable := p.numAvailable - 1 } : Pool).modifyShard i
      fun s => { s with available := false }).shard j).available = _
    rw [hshard]
    split
    · rename_i hij
      rw [← hij, hflips, havailable]
      rfl
    · rfl
  · rw [hflips]
    exact (drain_snd 0).imp_right fun hwaits => ⟨rfl, hwaits⟩

theorem decides_resumeVerdict (hi : i < p.shards.length) (healthy : Bool) (reply : Reply) :
    Decides p i healthy (p.resumeVerdict (.deciding i healthy) reply) := by
  cases healthy with
  | true => exact decides_promote hi
  | false => exact decides_demote hi

/-- What the flags say of a verdict that took a pool from `p` to `q`. A healthy one leaves its shard
available, an unhealthy one takes it out of service if it was in service and the available share of
the shards lay above the quorum, and neither touches another shard. -/
structure Obeys (p q : Pool) (i : Nat) (healthy : Bool) : Prop where
  promotes : healthy = true → (q.shard i).available = true
  demotes : healthy = false → (p.shard i).available = true →
    ((q.shard i).available = false ↔
      p.shards.length * p.config.quorum.numerator < p.numAvailable * p.config.quorum.denominator)
  keeps : healthy = false → (p.shard i).available = false → (q.shard i).available = false
  others : ∀ j, j ≠ i → (q.shard j).available = (p.shard j).available

theorem Decides.obeys {r : Pool × Progress Verdict Bool} (hdecides : Decides p i healthy r)
    (hq : q.shards = r.1.shards) : p.Obeys q i healthy := by
  have hflag : ∀ j, (q.shard j).available =
      if i = j then (p.shard j).available ^^ p.flips j healthy else (p.shard j).available := by
    intro j
    rw [shard, hq]
    exact hdecides.flag j
  constructor
  · rintro rfl
    rw [hflag, if_pos rfl]
    simp [flips]
  · rintro rfl havailable
    rw [hflag, if_pos rfl, flips, havailable, Quorum.permitsDemotion]
    simp
  · rintro rfl havailable
    rw [hflag, if_pos rfl, flips, havailable]
    rfl
  · intro j hji
    rw [hflag, if_neg hji.symm]

/-- The task waits for its verdict on shard `i` to be decided. -/
def Deciding (p : Pool) (id : TaskId) (i : Nat) (healthy : Bool) : Prop :=
  p.task? id = some (.verdict (.deciding i healthy))

/-- In the run `as` of `p` task `id` has decided its verdict on shard `i`, which it does when it
first goes on, and `flipped` says whether this changed the shard's flag. -/
def Decided (p : Pool) (as : List Action) (id : TaskId) (i : Nat) (healthy flipped : Bool) : Prop :=
  ∃ bs reply cs, as = bs ++ .resume id reply :: cs ∧ (∀ r, .resume id r ∉ bs) ∧
    (p.after bs).Deciding id i healthy ∧
    (flipped = true ↔
      ((p.after (bs ++ [.resume id reply])).shard i).available ≠ ((p.after bs).shard i).available)

theorem Decided.append {as : List Action} {id : TaskId} {flipped : Bool}
    (hdecided : p.Decided as id i healthy flipped) (ds : List Action) :
    p.Decided (as ++ ds) id i healthy flipped := by
  obtain ⟨bs, reply, cs, rfl, hrest⟩ := hdecided
  exact ⟨bs, reply, cs ++ ds, by simp, hrest⟩

/-- The step in which a task decides. -/
theorem decided_of_deciding (hwf : p.WellFormed) {as : List Action} {id : TaskId} (reply : Reply)
    (ht : (p.after as).Deciding id i healthy) (hfirst : ∀ r, .resume id r ∉ as) :
    p.Decided (as ++ [.resume id reply]) id i healthy ((p.after as).flips i healthy) := by
  have hwf' := hwf.after as
  have hi : i < (p.after as).shards.length := hwf'.verdicts id _ (hwf'.task?_eq_some_iff.mp ht)
  refine ⟨as, reply, [], rfl, hfirst, ht, ?_⟩
  have hshards := shards_resume ht reply
  have hflag := (decides_resumeVerdict hi healthy reply).flag i
  rw [if_pos rfl] at hflag
  have hafter : ((p.after (as ++ [.resume id reply])).shard i).available =
      (((p.after as).shard i).available ^^ (p.after as).flips i healthy) := by
    rw [after_append, ← hflag]
    change (((p.after as).resume id reply).1.shard i).available = _
    rw [shard, hshards]
    rfl
  rw [hafter]
  cases (p.after as).flips i healthy <;> simp

/-- A task that waits to decide still does, or has decided to take the shard out of service and
drains it. -/
theorem verdict_after (hwf : p.WellFormed) {id : TaskId} (hasked : p.Deciding id i healthy)
    {as : List Action} {t : Task} (ht : (p.after as).task? id = some t) :
    t = .verdict (.deciding i healthy) ∧ (∀ r, .resume id r ∉ as) ∨
      ∃ c drained, t = .verdict (.draining i c drained) ∧ p.Decided as id i healthy true := by
  induction as using List.reverseRecOn generalizing t with
  | nil => exact .inl ⟨Option.some.inj (ht.symm.trans hasked), fun _ => List.not_mem_nil⟩
  | append_singleton as a ih =>
    have hwf' := hwf.after as
    have hact : p.after (as ++ [a]) = (p.after as).act a := by rw [after_append]; rfl
    rw [hact] at ht
    obtain ⟨hother, hold⟩ | ⟨reply, u, rfl, hu, hadvance⟩ | ⟨hid, -⟩ :=
      mem_tasks_act hwf' ((hwf'.act a).task?_eq_some_iff.mp ht)
    · obtain ⟨rfl, hfirst⟩ | ⟨c, drained, rfl, hdecided⟩ := ih (hwf'.task?_eq_some_iff.mpr hold)
      · refine .inl ⟨rfl, fun r hr => ?_⟩
        obtain hr | hr := List.mem_append.mp hr
        · exact hfirst r hr
        · exact hother r (List.mem_singleton.mp hr).symm
      · exact .inr ⟨c, drained, rfl, hdecided.append [a]⟩
    · have hut := hwf'.task?_eq_some_iff.mpr hu
      obtain ⟨rfl, hfirst⟩ | ⟨c, drained, rfl, hdecided⟩ := ih hut
      · obtain ⟨w, hresume, rfl⟩ := Progress.map_eq_waits.mp hadvance
        have hi : i < (p.after as).shards.length := hwf'.verdicts id _ hu
        have hdecided := decided_of_deciding hwf reply hut hfirst
        obtain hdone | ⟨hflips, c, hwaits⟩ := (decides_resumeVerdict hi healthy reply).answer
        · cases hdone.symm.trans hresume
        · obtain rfl := Progress.waits.inj (hwaits.symm.trans hresume)
          exact .inr ⟨c, 0, rfl, hflips ▸ hdecided⟩
      · obtain ⟨w, hresume, rfl⟩ := Progress.map_eq_waits.mp hadvance
        obtain hdone | ⟨c', hwaits⟩ :=
          drain_snd (p := (p.after as).noteIdleClose i reply) (i := i) (drained + 1)
        · cases hdone.symm.trans hresume
        · obtain rfl := Progress.waits.inj (hwaits.symm.trans hresume)
          exact .inr ⟨c', drained + 1, rfl, hdecided.append _⟩
    · -- The name was given before, and names are given once.
      have hnamed : id < p.nextTask := hwf.fresh _ (hwf.task?_eq_some_iff.mp hasked)
      have hlater := Nat.lt_of_lt_of_le hnamed (nextTask_le_after hwf as)
      rw [hid] at hlater
      exact absurd hlater (Nat.lt_irrefl _)

private theorem exists_advance_of_resume {id : TaskId} {reply : Reply} {a : Answer}
    (hanswer : (p.resume id reply).2 = some a) :
    ∃ t, p.task? id = some t ∧ (p.advance t reply).2 = .done a := by
  unfold resume at hanswer
  split at hanswer
  · cases hanswer
  · rename_i t ht
    refine ⟨t, ht, ?_⟩
    rcases hadvance : p.advance t reply with ⟨q, t' | b⟩ <;> rw [hadvance] at hanswer
    · cases hanswer
    · rw [Option.some.inj hanswer]

/-- A task that waits to decide is answered whether its decision changed the flag. -/
theorem decided_of_answer (hwf : p.WellFormed) {id : TaskId} (hasked : p.Deciding id i healthy)
    {as : List Action} {reply : Reply} {a : Answer}
    (hanswer : ((p.after as).resume id reply).2 = some a) :
    ∃ flipped, a = .changed flipped ∧
      p.Decided (as ++ [.resume id reply]) id i healthy flipped := by
  have hwf' := hwf.after as
  obtain ⟨t, ht, hdone⟩ := exists_advance_of_resume hanswer
  obtain ⟨rfl, hfirst⟩ | ⟨c, drained, rfl, hdecided⟩ := verdict_after hwf hasked ht
  · obtain ⟨flipped, hresume, rfl⟩ := Progress.map_eq_done.mp hdone
    have hi : i < (p.after as).shards.length := hwf'.verdicts id _ (hwf'.task?_eq_some_iff.mp ht)
    have hdecided := decided_of_deciding hwf reply ht hfirst
    obtain hdone | ⟨-, c, hwaits⟩ := (decides_resumeVerdict hi healthy reply).answer
    · obtain rfl := Progress.done.inj (hdone.symm.trans hresume)
      exact ⟨_, rfl, hdecided⟩
    · cases hwaits.symm.trans hresume
  · obtain ⟨flipped, hresume, rfl⟩ := Progress.map_eq_done.mp hdone
    obtain hdone | ⟨c', hwaits⟩ :=
      drain_snd (p := (p.after as).noteIdleClose i reply) (i := i) (drained + 1)
    · obtain rfl := Progress.done.inj (hdone.symm.trans hresume)
      exact ⟨true, rfl, hdecided.append _⟩
    · cases hwaits.symm.trans hresume

/-- How a caller's verdict on shard `i` is taken. One on no shard is answered at once and changes
nothing; one on a shard becomes a task that decides it, and is answered whether the decision changed
the flag of the shard. -/
structure Takes (p : Pool) (i : Nat) (healthy : Bool) : Prop where
  outside : p.shards.length ≤ i → p.start (.mark i healthy) = (p, .done (.changed false))
  inside : i < p.shards.length → ∃ q id, p.start (.mark i healthy) = (q, .waits id) ∧
    q.shards = p.shards ∧ q.Deciding id i healthy ∧
    ∀ as reply a, ((q.after as).resume id reply).2 = some a →
      ∃ flipped, a = .changed flipped ∧ q.Decided (as ++ [.resume id reply]) id i healthy flipped

theorem takes_mark (hwf : p.WellFormed) (i : Nat) (healthy : Bool) : p.Takes i healthy := by
  constructor
  · intro hi
    simp only [start, begin, mark, if_neg (Nat.not_lt.mpr hi), Progress.map]
  · intro hi
    let t : Task := .verdict (.deciding i healthy)
    let q : Pool := { p with tasks := p.tasks ++ [(p.nextTask, t)], nextTask := p.nextTask + 1 }
    have hstart : p.start (.mark i healthy) = (q.askFor t, .waits p.nextTask) := by
      simp only [start, begin, mark, if_pos hi, Progress.map]
      rfl
    have hwf' : (q.askFor t).WellFormed := by
      have hact := hwf.act (.start (.mark i healthy))
      rwa [act, hstart] at hact
    have hasked : (q.askFor t).Deciding p.nextTask i healthy := by
      apply hwf'.task?_eq_some_iff.mpr
      rw [tasks_askFor]
      exact List.mem_append_right _ List.mem_cons_self
    exact ⟨_, _, hstart, shards_askFor q t, hasked, fun as reply a => decided_of_answer hwf' hasked⟩

/-- The health checker's verdicts are decided as those of its callers are. -/
theorem shards_turn {due : Duration} {e : Errand} (hchecker : p.checker = .working due e)
    (he : e.inspection = .judging (.deciding i healthy)) :
    p.turn.shards = (p.resumeVerdict (.deciding i healthy) (.ok ())).1.shards := by
  have hcall : e.inspection.call? = none := by rw [he]; rfl
  unfold turn
  simp only [hchecker, hcall]
  rw [shards_setErrand, fst_resumeErrand, he, fst_resumeInspection_judging]

end QuorumPool.Pool
