import QuorumPool.Proofs.Availability
import QuorumPool.Proofs.Sweep

namespace QuorumPool

/-- What a verdict leaves of its shard. -/
inductive Shard.Judged (s : Shard) : (healthy : Bool) → Shard → Prop
  | serves : Judged s true { s with available := true }
  | stays : Judged s false s
  | leaves (havailable : s.available = true) :
      Judged s false { s.drained with available := false }

namespace Pool

variable {p q r : Pool} {i j : Nat} {healthy : Bool} {xs : List Exchange} {vs : List Inspected}

/-- The shards from number `i` on of which `f` holds, in order. -/
def shardsFrom (p : Pool) (i : Nat) (f : Nat → Bool) : List Nat :=
  ((List.range p.shards.length).drop i).filter f

/-- Whether shard `j` is in service, and suspect. -/
def isSuspectInService (p : Pool) (j : Nat) : Bool :=
  (p.shard j).available && (p.shard j).isSuspect p.config.maxFails

section ShardsFrom

variable {f g : Nat → Bool}

theorem mem_shardsFrom : j ∈ p.shardsFrom i f ↔ i ≤ j ∧ j < p.shards.length ∧ f j = true := by
  simp only [shardsFrom, List.mem_filter, List.mem_drop_iff_getElem, List.getElem_range,
    List.length_range]
  constructor
  · rintro ⟨⟨k, hk, rfl⟩, hf⟩
    exact ⟨by omega, by omega, hf⟩
  · rintro ⟨hij, hj, hf⟩
    exact ⟨⟨j - i, by omega, by omega⟩, hf⟩

theorem shardsFrom_eq_nil (hf : ∀ j, i ≤ j → j < p.shards.length → f j = false) :
    p.shardsFrom i f = [] := by
  apply List.eq_nil_iff_forall_not_mem.mpr
  intro j hj
  obtain ⟨hij, hlt, hfj⟩ := mem_shardsFrom.mp hj
  rw [hf j hij hlt] at hfj
  cases hfj

theorem shardsFrom_congr (hlen : q.shards.length = p.shards.length)
    (hfg : ∀ j, i ≤ j → j < p.shards.length → g j = f j) : q.shardsFrom i g = p.shardsFrom i f := by
  unfold shardsFrom
  rw [hlen]
  apply List.filter_congr
  intro j hj
  obtain ⟨k, hk, rfl⟩ := List.mem_drop_iff_getElem.mp hj
  simp only [List.length_range, List.getElem_range] at hk ⊢
  exact hfg _ (by omega) (by omega)

theorem shardsFrom_cons (hi : i < p.shards.length) (f : Nat → Bool) :
    p.shardsFrom i f = if f i then i :: p.shardsFrom (i + 1) f else p.shardsFrom (i + 1) f := by
  have hdrop : (List.range p.shards.length).drop i =
      i :: (List.range p.shards.length).drop (i + 1) := by
    rw [List.drop_eq_getElem_cons (by simpa using hi), List.getElem_range]
  rw [shardsFrom, hdrop, List.filter_cons]
  rfl

/-- Shards of which `f` does not hold may be passed over. -/
theorem shardsFrom_of_le (hij : i ≤ j) (hj : j ≤ p.shards.length)
    (hf : ∀ k, i ≤ k → k < j → f k = false) : p.shardsFrom i f = p.shardsFrom j f := by
  induction hij using Nat.decreasingInduction with
  | self => rfl
  | of_succ k hkj ih =>
    rw [shardsFrom_cons (by omega), if_neg]
    · exact ih fun l hl => hf l (Nat.le_of_succ_le hl)
    · simp [hf k (Nat.le_refl k) hkj]

/-- The first shard of which anything is to be said, and those after it. -/
theorem shardsFrom_eq (hij : i ≤ j) (hj : j < p.shards.length)
    (hf : ∀ k, i ≤ k → k < j → f k = false) :
    p.shardsFrom i f = if f j then j :: p.shardsFrom (j + 1) f else p.shardsFrom (j + 1) f := by
  rw [shardsFrom_of_le hij (Nat.le_of_lt hj) hf, shardsFrom_cons hj]

end ShardsFrom

section Applies

theorem Applies.others (happlies : p.Applies i healthy xs q) (hij : i ≠ j) :
    q.shard j = p.shard j := by
  have hset (s : Shard) : (p.shards.set i s).getD j default = p.shards.getD j default := by
    simp [List.getD_eq_getElem?_getD, hij]
  cases happlies with
  | kept | refused => rfl
  | promoted | demoted => exact hset _

theorem Applies.judged (hi : i < p.shards.length) (happlies : p.Applies i healthy xs q) :
    (p.shard i).Judged healthy (q.shard i) := by
  have hset (s : Shard) : (p.shards.set i s).getD i default = s := by
    simp [List.getD_eq_getElem?_getD, hi]
  cases happlies with
  | kept havailable =>
    cases healthy with
    | true =>
      have hsame : p.shard i = { p.shard i with available := true } := by rw [← havailable]
      exact hsame ▸ .serves
    | false => exact .stays
  | promoted =>
    change Shard.Judged _ _ ((p.shards.set i _).getD i default)
    rw [hset]
    exact .serves
  | refused => exact .stays
  | demoted havailable =>
    change Shard.Judged _ _ ((p.shards.set i _).getD i default)
    rw [hset]
    exact .leaves havailable

end Applies

section Proceeds

/-- A visit leaves the shards after its own for the sweep to come to. -/
theorem shardsFrom_needsCheck_of_visit {v : Inspected} {later : Duration}
    (hverdict : (p.setTime later).Applies v.shard healthy xs r) (hlt : v.shard < i) :
    r.shardsFrom i (fun j => r.needsCheck (r.shard j)) =
      p.shardsFrom i fun j => p.needsCheck (p.shard j) := by
  obtain ⟨hconfig, -, -, hlen⟩ := hverdict.fixed
  refine shardsFrom_congr hlen fun j hij _ => ?_
  have hshard : r.shard j = p.shard j := hverdict.others (by omega)
  rw [hshard, needsCheck, needsCheck, hconfig]
  rfl

/-- A sweep visits the shards that need it, in order. -/
theorem Proceeds.order (hproceeds : p.Proceeds i vs q) :
    vs.map Inspected.shard = p.shardsFrom i fun j => p.needsCheck (p.shard j) := by
  induction hproceeds with
  | done hnone => exact (shardsFrom_eq_nil (nextToSweep_eq_none_iff.mp hnone)).symm
  | visits hnext _ hverdict _ ih =>
    obtain ⟨hij, hj, hneeds, hbefore⟩ := nextToSweep_eq_some_iff.mp hnext
    rw [List.map_cons, ih, shardsFrom_needsCheck_of_visit hverdict (Nat.lt_succ_self _),
      shardsFrom_eq hij hj hbefore, if_pos hneeds]

theorem Proceeds.le_shard (hproceeds : p.Proceeds i vs q) {v : Inspected} (hv : v ∈ vs) :
    i ≤ v.shard ∧ v.shard < p.shards.length := by
  have hmem : v.shard ∈ vs.map Inspected.shard := List.mem_map_of_mem hv
  rw [hproceeds.order] at hmem
  obtain ⟨hi, hlt, -⟩ := mem_shardsFrom.mp hmem
  exact ⟨hi, hlt⟩

/-- A sweep leaves the shards alone that it does not visit. -/
theorem Proceeds.others (hproceeds : p.Proceeds i vs q) (hj : ∀ v ∈ vs, v.shard ≠ j) :
    q.shard j = p.shard j := by
  induction hproceeds with
  | done => rfl
  | visits _ _ hverdict _ ih =>
    rw [ih fun v hv => hj v (List.mem_cons_of_mem _ hv)]
    exact hverdict.others (hj _ List.mem_cons_self)

/-- A sweep leaves of each shard that it visits what the one verdict leaves of it. -/
theorem Proceeds.judged (hproceeds : p.Proceeds i vs q) {v : Inspected} (hv : v ∈ vs) :
    (p.shard v.shard).Judged v.healthy (q.shard v.shard) := by
  induction hproceeds with
  | done => cases hv
  | @visits p i u vs later r q hnext _ hverdict hrest ih =>
    obtain ⟨-, hj, -⟩ := nextToSweep_eq_some_iff.mp hnext
    obtain rfl | hv := List.mem_cons.mp hv
    · have hlater : q.shard v.shard = r.shard v.shard :=
        hrest.others fun u hu => by have := (hrest.le_shard hu).1; omega
      rw [hlater]
      exact Applies.judged (p := p.setTime later) hj hverdict
    · have hne : u.shard ≠ v.shard := by have := (hrest.le_shard hv).1; omega
      have hsame : r.shard v.shard = p.shard v.shard := hverdict.others hne
      exact hsame ▸ ih hv

theorem Proceeds.spared (hproceeds : p.Proceeds 0 vs q)
    (hspared : p.needsCheck (p.shard j) = false) : q.shard j = p.shard j := by
  apply hproceeds.others
  rintro v hv rfl
  have hmem : v.shard ∈ vs.map Inspected.shard := List.mem_map_of_mem hv
  rw [hproceeds.order] at hmem
  obtain ⟨-, -, hneeds⟩ := mem_shardsFrom.mp hmem
  rw [hspared] at hneeds
  cases hneeds

/-- The largest number of shards in service that is not above the quorum. -/
def floor (p : Pool) : Nat :=
  p.shards.length * p.config.quorum.numerator / p.config.quorum.denominator

private theorem permitsDemotion_iff (hpos : 0 < p.config.quorum.denominator) :
    p.config.quorum.permitsDemotion p.numAvailable p.shards.length = true ↔
      p.floor < p.numAvailable := by
  rw [Quorum.permitsDemotion, decide_eq_true_eq, floor, Nat.div_lt_iff_lt_mul hpos, gt_iff_lt]

private theorem Accounted.floor_le (hp : p.Accounted) (hpos : 0 < p.config.quorum.denominator) :
    p.floor ≤ p.numAvailable := by
  apply Nat.le_of_lt_succ
  rw [Pool.floor, Nat.div_lt_iff_lt_mul hpos]
  exact hp.floor

/-- A shard that fails its check leaves service if it was in it and the quorum permits that. -/
theorem Applies.unhealthy (hi : i < p.shards.length) (hpos : 0 < p.config.quorum.denominator)
    (happlies : p.Applies i false xs r) :
    (p.shard i).available = false ∧ (r.shard i).available = false ∧
        r.numAvailable = p.numAvailable ∨
      (p.shard i).available = true ∧ p.numAvailable ≤ p.floor ∧ (r.shard i).available = true ∧
        r.numAvailable = p.numAvailable ∨
      (p.shard i).available = true ∧ p.floor < p.numAvailable ∧ (r.shard i).available = false ∧
        r.numAvailable + 1 = p.numAvailable := by
  have hset (s : Shard) : (p.shards.set i s).getD i default = s := by
    simp [List.getD_eq_getElem?_getD, hi]
  have hpermits := permitsDemotion_iff hpos
  cases happlies with
  | kept havailable => exact .inl ⟨havailable, havailable, rfl⟩
  | refused havailable hquorum =>
    refine .inr (.inl ⟨havailable, Nat.le_of_not_lt fun hlt => ?_, havailable, rfl⟩)
    rw [hpermits.mpr hlt] at hquorum
    cases hquorum
  | demoted havailable hquorum =>
    have hlt := hpermits.mp hquorum
    refine .inr (.inr ⟨havailable, hlt, congrArg Shard.available (hset _), ?_⟩)
    exact Nat.sub_add_cancel (by omega)

/-- The shards from number `i` on that were in service before and are not any more. -/
def leftService (p q : Pool) (i : Nat) : List Nat :=
  p.shardsFrom i fun j => (p.shard j).available && !(q.shard j).available

/-- When every check fails, shards leave service from the first one on that is suspect, as long as
the quorum permits it. -/
theorem Proceeds.lost (hproceeds : p.Proceeds i vs q) (hlost : ∀ v ∈ vs, v.healthy = false)
    (hpos : 0 < p.config.quorum.denominator) (hfloor : p.floor ≤ p.numAvailable) :
    q.numAvailable = max (p.numAvailable - (p.shardsFrom i p.isSuspectInService).length) p.floor ∧
      p.leftService q i =
        (p.shardsFrom i p.isSuspectInService).take (p.numAvailable - p.floor) := by
  have hspared {p : Pool} {k : Nat} (hk : p.needsCheck (p.shard k) = false) :
      p.isSuspectInService k = false := by
    simp only [needsCheck, Bool.or_eq_false_iff] at hk
    rw [isSuspectInService, hk.2, Bool.and_false]
  induction hproceeds with
  | @done p i hnone =>
    have hnone := nextToSweep_eq_none_iff.mp hnone
    rw [leftService, shardsFrom_eq_nil fun k hik hk => hspared (hnone k hik hk),
      shardsFrom_eq_nil fun k _ _ => Bool.and_not_self _]
    exact ⟨(Nat.max_eq_left hfloor).symm, List.take_nil.symm⟩
  | @visits p i v vs later r q hnext _ hverdict hrest ih =>
    obtain ⟨hij, hj, hneeds, hbefore⟩ := nextToSweep_eq_some_iff.mp hnext
    obtain ⟨hconfig, -, -, hlen⟩ := hverdict.fixed
    have hothers (k : Nat) (hk : v.shard ≠ k) : r.shard k = p.shard k := hverdict.others hk
    have hself : q.shard v.shard = r.shard v.shard :=
      hrest.others fun u hu => by have := (hrest.le_shard hu).1; omega
    have hfloors : r.floor = p.floor := by rw [floor, hconfig, hlen, floor]; rfl
    have hsuspects : r.shardsFrom (v.shard + 1) r.isSuspectInService =
        p.shardsFrom (v.shard + 1) p.isSuspectInService := by
      refine shardsFrom_congr hlen fun k hk _ => ?_
      rw [isSuspectInService, isSuspectInService, hothers k (by omega), hconfig]
      rfl
    have hleft : r.leftService q (v.shard + 1) = p.leftService q (v.shard + 1) := by
      refine shardsFrom_congr hlen fun k hk _ => ?_
      rw [hothers k (by omega)]
    have hnow : p.shardsFrom i p.isSuspectInService =
        if p.isSuspectInService v.shard then
          v.shard :: p.shardsFrom (v.shard + 1) p.isSuspectInService
        else p.shardsFrom (v.shard + 1) p.isSuspectInService :=
      shardsFrom_eq hij hj fun k hik hkj => hspared (hbefore k hik hkj)
    have hleftnow : p.leftService q i = if (p.shard v.shard).available && !(q.shard v.shard).available
        then v.shard :: p.leftService q (v.shard + 1) else p.leftService q (v.shard + 1) := by
      refine shardsFrom_eq hij hj fun k _ hkj => ?_
      have hsame : q.shard k = p.shard k :=
        (hrest.others fun u hu => by have := (hrest.le_shard hu).1; omega).trans
          (hothers k (by omega))
      rw [hsame, Bool.and_not_self]
    have ih := ih (fun u hu => hlost u (List.mem_cons_of_mem _ hu))
      (by rw [hconfig]; exact hpos)
    rw [hfloors, hsuspects, hleft] at ih
    rw [hnow, hleftnow, hself]
    have hunhealthy := hlost v List.mem_cons_self
    rw [hunhealthy] at hverdict
    obtain ⟨hout, hout', hcount⟩ | ⟨hin, hfull, hin', hcount⟩ | ⟨hin, hroom, hout', hcount⟩ :=
      Applies.unhealthy (p := p.setTime later) hj hpos hverdict
    · have hout : (p.shard v.shard).available = false := hout
      have hcount : r.numAvailable = p.numAvailable := hcount
      have hnot : ¬p.isSuspectInService v.shard = true := by simp [isSuspectInService, hout]
      rw [hcount] at ih
      rw [if_neg hnot, hout, Bool.false_and, if_neg Bool.false_ne_true]
      exact ih hfloor
    · have hin : (p.shard v.shard).available = true := hin
      have hcount : r.numAvailable = p.numAvailable := hcount
      have hnone : p.numAvailable - p.floor = 0 := Nat.sub_eq_zero_of_le hfull
      obtain ⟨hnum, hleave⟩ := ih (hcount ▸ hfloor)
      rw [hcount, hnone, List.take_zero] at hleave
      rw [if_pos (by simpa [isSuspectInService, needsCheck, hin] using hneeds), hin',
        Bool.not_true, Bool.and_false, if_neg Bool.false_ne_true, hleave, hnone, List.take_zero,
        List.length_cons]
      exact ⟨by omega, rfl⟩
    · have hin : (p.shard v.shard).available = true := hin
      have hroom : p.floor < p.numAvailable := hroom
      have hcount : r.numAvailable + 1 = p.numAvailable := hcount
      have hmore : p.numAvailable - p.floor = r.numAvailable - p.floor + 1 := by omega
      obtain ⟨hnum, hleave⟩ := ih (by omega)
      rw [if_pos (by simpa [isSuspectInService, needsCheck, hin] using hneeds), hin, hout',
        Bool.not_false, Bool.and_self, if_pos rfl, hleave, hmore, List.take_succ_cons,
        List.length_cons]
      exact ⟨by omega, rfl⟩

end Proceeds

/-- What a sweep that starts from the pool `p` does with nobody else around: by the visits `vs`, in
which the exchanges `xs` pass between it and the factory, it comes to the pool `q`. -/
structure Swept (p : Pool) (vs : List Inspected) (xs : List Exchange) (q : Pool) : Prop where
  /-- The verdict of a check is applied before the next check is made. -/
  proceeds : p.Proceeds 0 vs { q with checker := p.checker, journal := p.journal }
  /-- The factory is asked for what the visits take, and for nothing else. -/
  exchanges : xs = vs.flatMap Inspected.exchanges
  /-- The shards that are out of service or suspect are visited in order. -/
  order : vs.map Inspected.shard = p.shardsFrom 0 fun i => p.needsCheck (p.shard i)
  /-- Any other shard stays as it was. -/
  spared : ∀ i, p.needsCheck (p.shard i) = false → q.shard i = p.shard i
  /-- A shard that is visited changes by its verdict alone. -/
  judged : ∀ v ∈ vs, (p.shard v.shard).Judged v.healthy (q.shard v.shard)
  /-- The shards in service have been counted. -/
  counted : p.numAvailable = p.flagged
  /-- When every check passes, every shard is in service. -/
  recovered : (∀ v ∈ vs, v.healthy = true) → ∀ i < p.shards.length, (q.shard i).available = true
  /-- When every check fails, no shard comes back. -/
  unpromoted : (∀ v ∈ vs, v.healthy = false) →
    ∀ i, (q.shard i).available = true → (p.shard i).available = true
  /-- Then the first suspects leave service, down to the quorum. -/
  demoted : (∀ v ∈ vs, v.healthy = false) →
    p.leftService q 0 =
      (p.shardsFrom 0 p.isSuspectInService).take (p.numAvailable - p.floor)
  /-- So many shards stay in service. -/
  remaining : (∀ v ∈ vs, v.healthy = false) →
    q.numAvailable = max (p.numAvailable - (p.shardsFrom 0 p.isSuspectInService).length) p.floor

theorem Accounted.swept {due : Duration} {journal : List Entry} (hp : p.Accounted)
    (hpos : 0 < p.config.quorum.denominator)
    (hattends : Attends due (p.attending due (p.sweepFrom 0) journal) xs q) :
    ∃ vs, p.Swept vs xs q := by
  obtain ⟨vs, hproceeds, hxs⟩ := exists_proceeds hattends
  have hspared (i : Nat) (hi : p.needsCheck (p.shard i) = false) : q.shard i = p.shard i :=
    hproceeds.spared hi
  have hjudged (v : Inspected) (hv : v ∈ vs) :
      (p.shard v.shard).Judged v.healthy (q.shard v.shard) := hproceeds.judged hv
  have hvisited (i : Nat) : (∃ v ∈ vs, v.shard = i) ∨ q.shard i = p.shard i := by
    by_cases hi : ∃ v ∈ vs, v.shard = i
    · exact .inl hi
    · exact .inr (hproceeds.others fun v hv hvi => hi ⟨v, hv, hvi⟩)
  refine ⟨vs, hproceeds, hxs, hproceeds.order, hspared, hjudged, hp.flags, fun hall i hi => ?_,
    fun hnone i hi => ?_, fun hnone => (hproceeds.lost hnone hpos (hp.floor_le hpos)).2,
    fun hnone => (hproceeds.lost hnone hpos (hp.floor_le hpos)).1⟩
  · cases hneeds : p.needsCheck (p.shard i) with
    | true =>
      have hmem : i ∈ vs.map Inspected.shard := by
        rw [hproceeds.order]
        exact mem_shardsFrom.mpr ⟨Nat.zero_le i, hi, hneeds⟩
      obtain ⟨v, hv, rfl⟩ := List.mem_map.mp hmem
      have hserves := hjudged v hv
      rw [hall v hv] at hserves
      generalize q.shard v.shard = t at hserves ⊢
      cases hserves
      rfl
    | false =>
      rw [hspared i hneeds]
      simp only [needsCheck, Bool.or_eq_false_iff, Bool.not_eq_false'] at hneeds
      exact hneeds.1
  · obtain ⟨v, hv, rfl⟩ | hsame := hvisited i
    · have hfails := hjudged v hv
      rw [hnone v hv] at hfails
      generalize q.shard v.shard = t at hfails hi
      cases hfails with
      | stays => exact hi
      | leaves havailable => exact havailable
    · rwa [hsame] at hi

/-- After every run, a sweep with nobody else around comes to its end on every factory, and visits
the shards that are out of service or suspect, and no other. When all of their checks pass, every
shard is in service again. When all of them fail, the first suspects leave service, and their queues
are emptied, until no more is above the quorum or no suspect is left. -/
theorem sweep_spec {config : Config} {addresses : List String} {now : Duration}
    (hcreate : create config addresses now = .ok p) {as : List Action} (hruns : p.Runs as)
    (due : Duration) :
    (∀ f : Factory, ∃ xs q,
      Attends due ((p.after as).setErrand due ((p.after as).sweepFrom 0)) xs q ∧
        f.Makes [] (p.after as).now xs) ∧
    ∀ xs q, Attends due ((p.after as).setErrand due ((p.after as).sweepFrom 0)) xs q →
      ∃ vs, (p.after as).Swept vs xs q := by
  obtain ⟨journal, heq⟩ := exists_setErrand_eq (p.after as) due ((p.after as).sweepFrom 0)
  rw [heq]
  refine ⟨fun f => exists_attends f [] rfl, fun xs q hattends => ?_⟩
  refine (accounted_after hcreate hruns).swept ?_ hattends
  obtain ⟨hconfig, -, hp⟩ := eq_of_create hcreate
  rw [(abides_after p as).config, hp]
  exact hconfig.denominator

/-- A pool of three shards, of which the quorum wants one to stay in service. -/
def threeShards : Pool where
  config := { quorum := ⟨1, 3⟩, maxFails := 1, healthCheckAttempts := 1 }
  shards := [{ address := "a:1" }, { address := "b:1" }, { address := "c:1" }]
  numAvailable := 3
  journal := [.event (.poolStarted 3 5)]

/-- Each of the three shards fails once. -/
def threeFailures : List Action :=
  [.start .get, .resume 0 (.error .poolExhausted), .resume 0 (.error .poolExhausted),
    .resume 0 (.error .poolExhausted)]

/-- None of the three suspects passes its check. The first two leave service, and the third has to
stay. -/
theorem sweep_spec_three :
    create { quorum := ⟨1, 3⟩, maxFails := 1, healthCheckAttempts := 1 } ["a:1", "b:1", "c:1"]
        .zero = .ok threeShards ∧
      threeShards.Runs threeFailures ∧
      ∃ vs xs q, (threeShards.after threeFailures).Swept vs xs q ∧
        vs.map Inspected.shard = [0, 1, 2] ∧
        xs.map Exchange.call = [.probe "a:1", .probe "b:1", .probe "c:1"] ∧
        q.shards.map Shard.available = [false, false, true] ∧ q.numAvailable = 1 := by
  have hcreate : create { quorum := ⟨1, 3⟩, maxFails := 1, healthCheckAttempts := 1 }
      ["a:1", "b:1", "c:1"] .zero = .ok threeShards := rfl
  have hruns : threeShards.Runs threeFailures := by decide
  let check (i : Nat) (address : String) : Errand :=
    .sweep (.checking i ⟨address, 1, .dialing⟩)
  let verdict (i : Nat) : Errand := .sweep (.judging (.deciding i false))
  have hattends : ∃ q, Attends .zero
      ((threeShards.after threeFailures).setErrand .zero
        ((threeShards.after threeFailures).sweepFrom 0))
      [⟨.probe "a:1", ⟨1⟩, .error .poolExhausted⟩, ⟨.probe "b:1", ⟨2⟩, .error .poolExhausted⟩,
        ⟨.probe "c:1", ⟨3⟩, .error .poolExhausted⟩] q ∧
      q.shards.map Shard.available = [false, false, true] ∧ q.numAvailable = 1 :=
    ⟨_, .asks (e := check 0 "a:1") (by decide) rfl (by decide) <|
      .decides (e := verdict 0) (by decide) rfl <|
      .asks (e := check 1 "b:1") (by decide) rfl (by decide) <|
      .decides (e := verdict 1) (by decide) rfl <|
      .asks (e := check 2 "c:1") (by decide) rfl (by decide) <|
      .decides (e := verdict 2) (by decide) rfl <| .done (by decide), by decide, by decide⟩
  obtain ⟨q, hattends, havailable, hcount⟩ := hattends
  obtain ⟨vs, hswept⟩ := (sweep_spec hcreate hruns .zero).2 _ q hattends
  refine ⟨hcreate, hruns, vs, _, q, hswept, ?_, rfl, havailable, hcount⟩
  rw [hswept.order]
  decide

end Pool

end QuorumPool
