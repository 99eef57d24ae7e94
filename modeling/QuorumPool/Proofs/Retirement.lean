import Mathlib.Data.List.Forall2
import QuorumPool.Proofs.Completion
import QuorumPool.Proofs.Trials
import QuorumPool.Redis.Registry

namespace QuorumPool

variable {C : Client}

namespace Pool

/-- A pool and what has become of it, after any run and with its journal handed over at any time. -/
inductive Later (p : Pool) : Pool → Prop
  | refl : Later p p
  | act {q : Pool} {a : Action} : Later p q → q.Admits a → Later p (q.act a)
  | report {q : Pool} : Later p q → Later p q.takeJournal.1

/-- A pool that is shut down: it is closed with all of its shards, has no idle connection left, and
its health checker has stopped. -/
structure Down (p : Pool) : Prop where
  closed : p.closed = true
  checker : p.checker = .stopped
  shards : ∀ s ∈ p.shards, s.closed = true ∧ s.idle = []

variable {p q : Pool}

theorem Reached.later (hp : p.Reached) (hlater : p.Later q) : q.Reached := by
  induction hlater with
  | refl => exact hp
  | act _ hadmits ih => exact ih.act hadmits
  | report _ ih => exact ih.report

theorem Later.after (hlater : p.Later q) {as : List Action} (hruns : q.Runs as) :
    p.Later (q.after as) :=
  hruns.keeps (fun _ _ hadmits hlater => .act hlater hadmits) hlater

theorem Finished.down (hp : p.Finished) : p.Down := by
  refine ⟨hp.closed, hp.checker, fun s hs => ?_⟩
  obtain ⟨i, hi, rfl⟩ := List.mem_iff_getElem.mp hs
  rw [← shard_eq_getElem hi]
  exact hp.shut.shards i hi

/-- A pool of which nobody has asked anything since it was made. -/
structure Unused (p : Pool) : Prop where
  reached : p.Reached
  opened : p.closed = false
  idle : p.idleCount = 0
  rests : p.checker.errand? = none

end Pool

namespace RedisPool

/-- A pool of Redis connections and what has become of it. -/
structure Later (p q : RedisPool C) : Prop where
  name : q.name = p.name
  dialer : q.dialer = p.dialer
  pool : p.pool.Later q.pool

/-- A pool of Redis connections and what a shutdown makes of it. -/
structure Retires (p q : RedisPool C) : Prop extends Later p q where
  closed : q.pool.closed = true
  /-- A pool that is closed already may be about to shut down, and is left to that. -/
  down : p.pool.closed = false → q.pool.Down

variable {p : RedisPool C}

theorem Later.refl (p : RedisPool C) : p.Later p := ⟨rfl, rfl, .refl⟩

theorem retires_close (hp : p.pool.Reached) (s : Scene C) : p.Retires (p.close s).2 := by
  obtain ⟨as, hruns, hafter, -⟩ :=
    Pool.exists_run_perform Reach.serve (p.reach s.network) p.pool .shutdown
  refine ⟨⟨rfl, rfl, ?_⟩, hp.closed_of_shutdown Reach.serve (p.reach s.network), fun hopen => ?_⟩
  · have hlater : p.pool.Later (p.pool.after as) := Pool.Later.refl.after hruns
    exact .report (hafter ▸ hlater)
  · have hdown := (hp.finished_of_shutdown hopen Reach.serve (p.reach s.network)).down
    exact ⟨hdown.closed, hdown.checker, hdown.shards⟩

/-- Shutting down a pool that was never used asks nothing of any server. -/
theorem reports_close (hp : p.pool.Unused) (s : Scene C) : s.Reports (p.close s).1 := by
  have hreach : (p.pool.shutdownAlone Reach.serve (p.reach s.network)).1 = p.reach s.network :=
    hp.reached.fst_shutdownAlone hp.opened hp.idle hp.rests Reach.serve (p.reach s.network)
  unfold close
  dsimp only
  rw [hreach]
  rfl

end RedisPool

namespace Registry

/-- Two registries with related pools in the same places. -/
structure Pointwise (R : RedisPool C → RedisPool C → Prop) (r r' : Registry (RedisPool C)) :
    Prop where
  default : Option.Rel R r.default r'.default
  named : List.Forall₂ (fun x y => y.1 = x.1 ∧ R x.2 y.2) r.named r'.named

variable {R : RedisPool C → RedisPool C → Prop} {r r' : Registry (RedisPool C)}

theorem mem_pools_of_default {p : RedisPool C} (hp : r.default = some p) : p ∈ r.pools :=
  List.mem_append_left _ (by simp [hp])

theorem mem_pools_of_named {x : String × RedisPool C} (hx : x ∈ r.named) : x.2 ∈ r.pools :=
  List.mem_append_right _ (List.mem_map_of_mem hx)

theorem Pointwise.refl (hR : ∀ p, R p p) (r : Registry (RedisPool C)) : r.Pointwise R r := by
  refine ⟨?_, List.forall₂_same.mpr fun x _ => ⟨rfl, hR x.2⟩⟩
  cases r.default with
  | none => exact .none
  | some p => exact .some (hR p)

theorem Pointwise.pools (hrel : r.Pointwise R r') : List.Forall₂ R r.pools r'.pools := by
  obtain ⟨hdefault, hnamed⟩ := hrel
  obtain ⟨p?, named⟩ := r
  obtain ⟨q?, named'⟩ := r'
  refine List.rel_append ?_ ?_
  · cases hdefault with
    | none => exact .nil
    | some hpq => exact .cons hpq .nil
  · rw [List.forall₂_map_left_iff, List.forall₂_map_right_iff]
    exact hnamed.imp fun _ _ hxy => hxy.2

/-- What holds of every pool makes something hold of every related one. -/
theorem Pointwise.forall_pools (hrel : r.Pointwise R r') {P Q : RedisPool C → Prop}
    (hstep : ∀ p q, P p → R p q → Q q) (hr : ∀ p ∈ r.pools, P p) : ∀ q ∈ r'.pools, Q q := by
  have hpools := hrel.pools
  generalize r.pools = ps at hpools hr
  generalize r'.pools = qs at hpools
  induction hpools with
  | nil => exact fun _ hq => absurd hq List.not_mem_nil
  | cons hpq _ ih =>
    obtain ⟨hp, hps⟩ := List.forall_mem_cons.mp hr
    exact List.forall_mem_cons.mpr ⟨hstep _ _ hp hpq, ih hps⟩

section Each

variable {f : Scene C → RedisPool C → Scene C × RedisPool C}

private theorem pointwise_eachNamed (s : Scene C) {named : List (String × RedisPool C)}
    (hf : ∀ s, ∀ x ∈ named, R x.2 (f s x.2).2) :
    List.Forall₂ (fun x y => y.1 = x.1 ∧ R x.2 y.2) named (eachNamed f s named).2 := by
  induction named generalizing s with
  | nil => exact .nil
  | cons x rest ih =>
    exact .cons ⟨rfl, hf s x List.mem_cons_self⟩
      (ih _ fun s y hy => hf s y (List.mem_cons_of_mem x hy))

/-- What is done with every pool relates the registries as it relates the pools. -/
theorem pointwise_each (s : Scene C) (hf : ∀ s, ∀ p ∈ r.pools, R p (f s p).2) :
    r.Pointwise R (each f s r).2 := by
  have hnamed : ∀ s, ∀ x ∈ r.named, R x.2 (f s x.2).2 := fun s x hx =>
    hf s x.2 (mem_pools_of_named hx)
  obtain ⟨p?, named⟩ := r
  cases p? with
  | none => exact ⟨.none, pointwise_eachNamed s hnamed⟩
  | some p => exact ⟨.some (hf s p (mem_pools_of_default rfl)), pointwise_eachNamed _ hnamed⟩

private theorem reports_eachNamed (s : Scene C) {named : List (String × RedisPool C)}
    (hf : ∀ s : Scene C, ∀ x ∈ named, s.Reports (f s x.2).1) :
    s.Reports (eachNamed f s named).1 := by
  induction named generalizing s with
  | nil => exact rfl
  | cons x rest ih =>
    have hrest := ih (f s x.2).1 fun s y hy => hf s y (List.mem_cons_of_mem x hy)
    exact hrest.trans (hf s x List.mem_cons_self)

theorem reports_each (s : Scene C) (hf : ∀ s : Scene C, ∀ p ∈ r.pools, s.Reports (f s p).1) :
    s.Reports (each f s r).1 := by
  have hnamed : ∀ s : Scene C, ∀ x ∈ r.named, s.Reports (f s x.2).1 := fun s x hx =>
    hf s x.2 (mem_pools_of_named hx)
  obtain ⟨p?, named⟩ := r
  cases p? with
  | none => exact reports_eachNamed s hnamed
  | some p => exact (reports_eachNamed _ hnamed).trans (hf s p (mem_pools_of_default rfl))

end Each

/-- A shutdown retires every pool of a registry, whatever has become of them until then. -/
theorem retires_shutdown (hr : ∀ p ∈ r.pools, p.pool.Reached)
    (hlater : r.Pointwise RedisPool.Later r') (s : Scene C) :
    r'.Pointwise RedisPool.Retires (r'.shutdown s).2 := by
  have hreached : ∀ p ∈ r'.pools, p.pool.Reached :=
    hlater.forall_pools (fun _ _ hp hpq => Pool.Reached.later hp hpq.pool) hr
  exact pointwise_each s fun s p hp => RedisPool.retires_close (hreached p hp) s

/-- After a shutdown every pool is closed. -/
theorem Pointwise.closed (hretires : r.Pointwise RedisPool.Retires r') :
    ∀ p ∈ r'.pools, p.pool.closed = true :=
  hretires.forall_pools (P := fun _ => True) (fun _ _ _ hpq => hpq.closed) fun _ _ => trivial

/-- Shutting down pools that were never used asks nothing of any server. -/
theorem reports_shutdown (hr : ∀ p ∈ r.pools, p.pool.Unused) (s : Scene C) :
    s.Reports (r.shutdown s).1 := by
  have heach : s.Reports (each (fun s p => p.close s) s r).1 :=
    reports_each s fun s p hp => RedisPool.reports_close (hr p hp) s
  unfold shutdown
  dsimp only
  split
  · exact heach
  · exact heach

end Registry

end QuorumPool
