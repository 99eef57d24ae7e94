import Mathlib.Data.Int.CardIntervalMod
import Mathlib.Data.Set.Equitable
import QuorumPool.Proofs.Closures
import QuorumPool.Proofs.ShardPut
import QuorumPool.Proofs.Tour

namespace QuorumPool

/-- How often consecutive numbers leave the remainder `i`. -/
theorem count_range'_mod_add {n i : Nat} (hi : i < n) (r l : Nat) :
    ((List.range' r l).map (· % n)).count i + (r / n + if i < r % n then 1 else 0) =
      (r + l) / n + if i < (r + l) % n then 1 else 0 := by
  have hpos : 0 < n := Nat.zero_lt_of_lt hi
  have hcount (b : Nat) :
      b.count (· ≡ i [MOD n]) = b / n + if i < b % n then 1 else 0 := by
    rw [Nat.count_modEq_card b hpos, Nat.mod_eq_of_lt hi]
  rw [← hcount, ← hcount]
  induction l with
  | zero => simp
  | succ l ih =>
    rw [← Nat.add_assoc, Nat.count_succ, ← ih, List.range'_1_concat, List.map_append,
      List.count_append]
    simp only [List.map_singleton, List.count_singleton, beq_iff_eq, Nat.ModEq,
      Nat.mod_eq_of_lt hi]
    omega

/-- Consecutive numbers leave each remainder alike, but for one. -/
theorem count_range'_mod_le {n i j : Nat} (hi : i < n) (hj : j < n) (r l : Nat) :
    ((List.range' r l).map (· % n)).count i ≤ ((List.range' r l).map (· % n)).count j + 1 := by
  have hcount := count_range'_mod_add hi r l
  have hcount' := count_range'_mod_add hj r l
  have hle : r / n ≤ (r + l) / n := Nat.div_le_div_right (Nat.le_add_right r l)
  split at hcount <;> split at hcount <;> split at hcount' <;> split at hcount' <;> omega

/-- A get that was run on its own to its end: the visits that it made, and its result. -/
structure Turn where
  visits : List Visit
  result : Except PoolError ConnId

namespace Turn

/-- The shard that lent the get its connection. -/
def server? (t : Turn) : Option Nat := (t.visits.find? (·.lent?.isSome)).map Visit.shard

/-- Whether the get is lent a connection by the first shard of `A` that it visits. -/
def ServedIn (A : Finset Nat) (t : Turn) : Prop :=
  ∃ vs v c, t.visits = vs ++ [v] ∧ (∀ u ∈ vs, u.shard ∉ A) ∧ v.shard ∈ A ∧
    t.server? = some v.shard ∧ t.result = .ok c

end Turn

/-- Whether the shards of `A` are able to serve and the others are not, as far as the gets see: a
visit to a shard of `A` leads to a connection, and a visit to any other shard does not. -/
def Serving (A : Finset Nat) (ts : List Turn) : Prop :=
  ∀ t ∈ ts, ∀ v ∈ t.visits, v.lent?.isSome ↔ v.shard ∈ A

/-- Among `n` shards in cyclic order, `j` is the first of `A` that comes strictly after `i`. -/
def NextOf (n : Nat) (A : Finset Nat) (i j : Nat) : Prop :=
  ∃ d, 0 < d ∧ d ≤ n ∧ j = (i + d) % n ∧ j ∈ A ∧ ∀ e, 0 < e → e < d → (i + e) % n ∉ A

namespace Pool

/-- A get on its own, from its start to its end. -/
structure Gets (p : Pool) (t : Turn) (q : Pool) : Prop where
  ends : getting.Ends p.get (t.visits.flatMap Visit.exchanges) q t.result
  tour : Tour p.rotation p.rotate 0 t.visits q
  settles : Settles p.maxRetry p.maxRetry t.visits t.result

/-- Gets that are run one after another, with returns between them while time passes. -/
inductive Turns : Pool → List Turn → Pool → Prop
  | nil (p : Pool) : Turns p [] p
  | get {p q r : Pool} {t ts} (hgets : p.Gets t q) (hrest : Turns q ts r) : Turns p (t :: ts) r
  | put {p q r : Pool} {c broken xs result ts}
      (hends : (returning c).Ends (p.put c broken) xs q result) (hrest : Turns q ts r) :
      Turns p ts r
  | wait {p r : Pool} {now ts} (htime : p.now ≤ now) (hrest : Turns (p.setTime now) ts r) :
      Turns p ts r

/-- From `p` to `q` the visits come to the shards in rotation, which they leave where the last of
them was, one shard further on. -/
structure Rounds (p : Pool) (vs : List Visit) (q : Pool) : Prop where
  closed : q.closed = p.closed
  length : q.shards.length = p.shards.length
  rotation : q.rotation = p.rotation + vs.length
  shards : vs.map Visit.shard =
    (List.range' p.rotation vs.length).map (· % p.shards.length)

variable {p q r : Pool} {A : Finset Nat} {t t' : Turn} {ts us : List Turn} {i j : Nat}

namespace Rounds

variable {vs ws : List Visit}

theorem refl (p : Pool) : p.Rounds [] p := ⟨rfl, rfl, rfl, rfl⟩

theorem trans (hpq : p.Rounds vs q) (hqr : q.Rounds ws r) : p.Rounds (vs ++ ws) r where
  closed := hqr.closed.trans hpq.closed
  length := hqr.length.trans hpq.length
  rotation := by rw [hqr.rotation, hpq.rotation, List.length_append, Nat.add_assoc]
  shards := by
    rw [List.map_append, hpq.shards, hqr.shards, hpq.rotation, hpq.length, List.length_append,
      ← List.range'_append_1, List.map_append]

theorem shard_eq (hrounds : p.Rounds vs q) {k : Nat} {v : Visit} (hv : vs[k]? = some v) :
    v.shard = (p.rotation + k) % p.shards.length := by
  have hk := congrArg (·[k]?) hrounds.shards
  obtain ⟨hlt, rfl⟩ := List.getElem?_eq_some_iff.mp hv
  simpa [List.getElem?_range', hlt] using hk

end Rounds

section Put

variable {c : ConnId} {broken : Bool} {xs : List Exchange} {result : Except PoolError Unit}

/-- While a returned connection is closed, only time passes. -/
theorem exists_setTime_of_ends {w : Pool × Progress Unit (Except PoolError Unit)}
    (hends : (returning c).Ends w xs q result) : ∃ now, q = w.1.setTime now := by
  cases hends with
  | done q result => exact ⟨q.now, rfl⟩
  | waits _ _ hrest =>
    obtain ⟨-, rfl, -⟩ := Activity.ends_done_iff.mp hrest
    exact ⟨_, rfl⟩

/-- A return leaves the rotation where it is. -/
theorem Rounds.put (hends : (returning c).Ends (p.put c broken) xs q result) :
    p.Rounds [] q := by
  obtain ⟨now, rfl⟩ := exists_setTime_of_ends hends
  have haside := Aside.put p c broken
  exact ⟨haside.closed, haside.length, rotation_put p c broken, rfl⟩

end Put

section Get

private theorem closed_of_ends {w : Pool × Progress Getting (Except PoolError ConnId)}
    {xs : List Exchange} {result : Except PoolError ConnId}
    (hends : getting.Ends w xs q result) : q.closed = w.1.closed := by
  induction hends with
  | done => rfl
  | waits _ _ _ ih => exact ih.trans (Aside.resumeGet _ _ _).closed

/-- A get on its own comes to its end on every factory. -/
theorem exists_gets (hopen : p.closed = false) (hpos : 0 < p.shards.length) (f : Factory) :
    ∃ t q, p.Gets t q ∧ f.Makes [] p.now (t.visits.flatMap Visit.exchanges) := by
  have hget : p.get = p.rotate.visit p.rotation 0 p.maxRetry := by
    rw [get, hopen]
    rfl
  have hpos : 0 < p.rotate.shards.length := hpos
  have hhalts : getting.Halts (p.rotate.visit p.rotation 0 p.maxRetry) :=
    halts_visit hpos (Nat.zero_add p.maxRetry)
  obtain ⟨xs, q, result, hends, hmakes⟩ := hhalts.exists_ends f []
  rw [now_visit] at hmakes
  obtain ⟨vs, htour, rfl, -, hsettles⟩ := exists_tour hpos (Nat.zero_add p.maxRetry) hends
  exact ⟨⟨vs, result⟩, q, ⟨hget ▸ hends, htour, hsettles⟩, hmakes⟩

namespace Gets

/-- The visits begin at the shard that the rotation has come to. -/
theorem shard_eq (hpos : 0 < p.shards.length) (hgets : p.Gets t q) {k : Nat} {v : Visit}
    (hv : t.visits[k]? = some v) : v.shard = (p.rotation + k) % p.shards.length := by
  have hshard := Tour.shard_eq (p := p.rotate) hpos hgets.tour hv
  rwa [Nat.zero_add] at hshard

/-- Some shard is able to serve, so the get ends at the first such. -/
theorem servedIn (hA : A.Nonempty) (hin : ∀ i ∈ A, i < p.shards.length) (hgets : p.Gets t q)
    (hserving : ∀ v ∈ t.visits, v.lent?.isSome ↔ v.shard ∈ A) : t.ServedIn A := by
  obtain ⟨i, hi⟩ := hA
  have hpos : 0 < p.shards.length := Nat.zero_lt_of_lt (hin i hi)
  obtain ⟨vs, v, c, hvisits, hv, hvs, hresult⟩ | ⟨hlength, hnone, -⟩ := hgets.settles
  · rw [hvisits] at hserving
    have hvain : ∀ u ∈ vs, u.shard ∉ A := by
      intro u hu hmem
      have hlent := (hserving u (by simp [hu])).mpr hmem
      simp [hvs u hu] at hlent
    have hfind : vs.find? (·.lent?.isSome) = none :=
      List.find?_eq_none.mpr fun u hu => by simp [hvs u hu]
    refine ⟨vs, v, c, hvisits, hvain, (hserving v (by simp)).mp (by simp [hv]), ?_, hresult⟩
    simp [Turn.server?, hvisits, List.find?_append, hfind, hv]
  -- A get that fails has been to every shard, those of `A` among them.
  · obtain ⟨d, hd, hvisited⟩ := exists_add_mod_eq p.rotation (hin i hi)
    have hd : d < t.visits.length := by
      have hbudget : p.maxRetry = max p.shards.length p.config.minRetryAttempts := rfl
      omega
    have hmem : t.visits[d] ∈ t.visits := List.getElem_mem hd
    have hi' : t.visits[d].shard = i :=
      (hgets.shard_eq hpos (List.getElem?_eq_getElem hd)).trans hvisited
    have hlent := (hserving _ hmem).mpr (hi' ▸ hi)
    simp [hnone _ hmem] at hlent

/-- A get that is served turns the rotation once at its start and once for each visit in vain, and so
it leaves it right after its last visit. -/
theorem rounds (hA : A.Nonempty) (hin : ∀ i ∈ A, i < p.shards.length) (hgets : p.Gets t q)
    (hserving : ∀ v ∈ t.visits, v.lent?.isSome ↔ v.shard ∈ A) : p.Rounds t.visits q := by
  have hpos : 0 < p.shards.length := Nat.zero_lt_of_lt (hin _ hA.choose_spec)
  refine ⟨(closed_of_ends hgets.ends).trans (Aside.get p).closed,
    Tour.length_shards (p := p.rotate) hpos hgets.tour, ?_, ?_⟩
  · obtain ⟨vs, v, c, hvisits, hvs, hv, -⟩ := hgets.servedIn hA hin hserving
    rw [hvisits] at hserving
    have hlast : v.lent?.isNone = false := by
      have hlent := (hserving v (by simp)).mpr hv
      simpa [← Option.not_isSome] using hlent
    have hvain : ∀ u ∈ vs, u.lent?.isNone = true := by
      intro u hu
      have hlent := mt (hserving u (by simp [hu])).mp (hvs u hu)
      simpa using hlent
    have hrotation := Tour.rotation_eq (p := p.rotate) hpos hgets.tour
    have hrotate : p.rotate.rotation = p.rotation + 1 := rfl
    rw [hrotation, hrotate, hvisits, List.countP_append, List.countP_eq_length.mpr hvain]
    simp [hlast]
    omega
  · refine List.ext_getElem (by simp) fun k hk _ => ?_
    have hk : k < t.visits.length := by simpa using hk
    simpa using hgets.shard_eq hpos (List.getElem?_eq_getElem hk)

/-- Of two gets with no other between them, the second ends at the first shard of `A` that comes
after the one which served the first. -/
theorem nextOf (hA : A.Nonempty) (hin : ∀ i ∈ A, i < p.shards.length) (hgets : p.Gets t q)
    (hserving : ∀ v ∈ t.visits, v.lent?.isSome ↔ v.shard ∈ A) (hbetween : q.Rounds [] r)
    {s : Pool} (hgets' : r.Gets t' s) (hserving' : ∀ v ∈ t'.visits, v.lent?.isSome ↔ v.shard ∈ A)
    (hi : t.server? = some i) (hj : t'.server? = some j) : NextOf p.shards.length A i j := by
  have hpos : 0 < p.shards.length := Nat.zero_lt_of_lt (hin _ hA.choose_spec)
  have hrounds := hgets.rounds hA hin hserving
  have hlength : r.shards.length = p.shards.length := hbetween.length.trans hrounds.length
  have hrotation : r.rotation = p.rotation + t.visits.length :=
    hbetween.rotation.trans hrounds.rotation
  have hrounds' := hgets'.rounds hA (fun i hi => hlength ▸ hin i hi) hserving'
  obtain ⟨vs, v, c, hvisits, -, hv, hserver, -⟩ := hgets.servedIn hA hin hserving
  obtain ⟨ws, w, d, hvisits', hws, hw, hserver', -⟩ :=
    hgets'.servedIn hA (fun i hi => hlength ▸ hin i hi) hserving'
  obtain rfl : v.shard = i := Option.some.inj (hserver.symm.trans hi)
  obtain rfl : w.shard = j := Option.some.inj (hserver'.symm.trans hj)
  have hvshard : v.shard = (p.rotation + vs.length) % p.shards.length :=
    hrounds.shard_eq (by simp [hvisits])
  -- The shard `e + 1` places after the first server is the one of the second get's visit `e`.
  have hlater (e : Nat) : (v.shard + (e + 1)) % p.shards.length =
      (r.rotation + e) % r.shards.length := by
    rw [hvshard, Nat.mod_add_mod, hlength, hrotation, hvisits, List.length_append,
      List.length_singleton]
    congr 1
    omega
  have hwshard : w.shard = (v.shard + (ws.length + 1)) % p.shards.length := by
    rw [hlater]
    exact hrounds'.shard_eq (by simp [hvisits'])
  have hfirst : ∀ e, 0 < e → e < ws.length + 1 → (v.shard + e) % p.shards.length ∉ A := by
    intro e he hlt
    obtain ⟨e, rfl⟩ := Nat.exists_eq_succ_of_ne_zero he.ne'
    have hlt : e < ws.length := by omega
    have hshard : ws[e].shard = (r.rotation + e) % r.shards.length :=
      hrounds'.shard_eq (by simp [hvisits', List.getElem?_append_left hlt])
    rw [hlater, ← hshard]
    exact hws _ (List.getElem_mem hlt)
  refine ⟨ws.length + 1, Nat.succ_pos _, ?_, hwshard, hw, hfirst⟩
  -- After a whole round the second get would be back at the first server.
  by_contra hlong
  have hround := hfirst p.shards.length hpos (Nat.lt_of_not_le hlong)
  rw [Nat.add_mod_right, Nat.mod_eq_of_lt (hin _ hv)] at hround
  exact hround hv

end Gets

end Get

namespace Turns

/-- A sequence of gets in two parts. -/
theorem exists_of_append (hturns : p.Turns (ts ++ us) r) : ∃ q, p.Turns ts q ∧ q.Turns us r := by
  generalize hall : ts ++ us = vs at hturns
  induction hturns generalizing ts with
  | nil p =>
    obtain ⟨rfl, rfl⟩ := List.append_eq_nil_iff.mp hall
    exact ⟨p, .nil p, .nil p⟩
  | @get p q r t vs hgets hrest ih =>
    cases ts with
    | nil =>
      cases hall
      exact ⟨p, .nil p, .get hgets hrest⟩
    | cons u ts =>
      cases hall
      obtain ⟨o, hbefore, hafter⟩ := ih rfl
      exact ⟨o, .get hgets hbefore, hafter⟩
  | put hends _ ih =>
    obtain ⟨o, hbefore, hafter⟩ := ih hall
    exact ⟨o, .put hends hbefore, hafter⟩
  | wait htime _ ih =>
    obtain ⟨o, hbefore, hafter⟩ := ih hall
    exact ⟨o, .wait htime hbefore, hafter⟩

/-- The first get of a sequence finds the rotation where it was. -/
theorem exists_of_cons (hturns : p.Turns (t :: ts) r) :
    ∃ o q, p.Rounds [] o ∧ o.Gets t q ∧ q.Turns ts r := by
  generalize hall : t :: ts = us at hturns
  induction hturns with
  | nil => cases hall
  | @get p _ _ _ _ hgets hrest _ =>
    cases hall
    exact ⟨p, _, .refl p, hgets, hrest⟩
  | put hends _ ih =>
    obtain ⟨o, q, hrounds, hgets, hrest⟩ := ih hall
    exact ⟨o, q, (Rounds.put hends).trans hrounds, hgets, hrest⟩
  | wait _ _ ih =>
    obtain ⟨o, q, hrounds, hgets, hrest⟩ := ih hall
    exact ⟨o, q, ⟨hrounds.closed, hrounds.length, hrounds.rotation, rfl⟩, hgets, hrest⟩

/-- A sequence of gets that are served visits the shards in rotation. -/
theorem rounds (hA : A.Nonempty) (hin : ∀ i ∈ A, i < p.shards.length) (hturns : p.Turns ts q)
    (hserving : Serving A ts) : p.Rounds (ts.flatMap Turn.visits) q := by
  induction hturns with
  | nil p => exact .refl p
  | get hgets _ ih =>
    obtain ⟨hfirst, hrest⟩ := List.forall_mem_cons.mp hserving
    have hrounds := hgets.rounds hA hin hfirst
    exact hrounds.trans (ih (fun i hi => hrounds.length ▸ hin i hi) hrest)
  | put hends _ ih =>
    have hrounds := Rounds.put hends
    exact hrounds.trans (ih (fun i hi => hrounds.length ▸ hin i hi) hserving)
  | wait _ _ ih =>
    obtain ⟨hclosed, hlength, hrotation, hshards⟩ := ih hin hserving
    exact ⟨hclosed, hlength, hrotation, hshards⟩

theorem servedIn (hA : A.Nonempty) (hin : ∀ i ∈ A, i < p.shards.length) (hturns : p.Turns ts q)
    (hserving : Serving A ts) : ∀ t ∈ ts, t.ServedIn A := by
  induction ts generalizing p with
  | nil => simp
  | cons t ts ih =>
    obtain ⟨o, r, hbefore, hgets, hrest⟩ := hturns.exists_of_cons
    obtain ⟨hfirst, hserving⟩ := List.forall_mem_cons.mp hserving
    have hin : ∀ i ∈ A, i < o.shards.length := fun i hi => hbefore.length ▸ hin i hi
    have hlength := (hgets.rounds hA hin hfirst).length
    exact List.forall_mem_cons.mpr
      ⟨hgets.servedIn hA hin hfirst, ih (fun i hi => hlength ▸ hin i hi) hrest hserving⟩

end Turns

section Count

/-- A get that is served in `A` visits no shard of `A` but the one that serves it. -/
theorem count_shard_of_servedIn (hserved : t.ServedIn A) (hi : i ∈ A) :
    (t.visits.map Visit.shard).count i = if t.server? = some i then 1 else 0 := by
  obtain ⟨vs, v, c, hvisits, hvs, -, hserver, -⟩ := hserved
  have hvain : (vs.map Visit.shard).count i = 0 := by
    refine List.count_eq_zero.mpr fun hmem => ?_
    obtain ⟨u, hu, rfl⟩ := List.mem_map.mp hmem
    exact hvs u hu hi
  rw [hvisits, List.map_append, List.count_append, hvain, hserver]
  simp [List.count_singleton]

private theorem countP_server_eq (hserved : ∀ t ∈ ts, t.ServedIn A) (hi : i ∈ A) :
    ts.countP (·.server? = some i) = ((ts.flatMap Turn.visits).map Visit.shard).count i := by
  induction ts with
  | nil => rfl
  | cons t ts ih =>
    obtain ⟨hfirst, hrest⟩ := List.forall_mem_cons.mp hserved
    rw [List.countP_cons, ih hrest, List.flatMap_cons, List.map_append, List.count_append,
      count_shard_of_servedIn hfirst hi, Nat.add_comm]
    simp

/-- Each get is served once. -/
theorem sum_countP_server (hserved : ∀ t ∈ ts, t.ServedIn A) :
    ∑ i ∈ A, ts.countP (·.server? = some i) = ts.length := by
  induction ts with
  | nil => simp
  | cons t ts ih =>
    obtain ⟨hfirst, hrest⟩ := List.forall_mem_cons.mp hserved
    obtain ⟨vs, v, c, -, -, hv, hserver, -⟩ := hfirst
    simp only [List.countP_cons, Finset.sum_add_distrib, ih hrest, List.length_cons, hserver]
    simp [hv]

/-- Over a number of gets that is a multiple of the number of shards able to serve, these serve
alike. -/
theorem Turns.countP_server (hA : A.Nonempty) (hin : ∀ i ∈ A, i < p.shards.length)
    (hturns : p.Turns ts q) (hserving : Serving A ts) {k : Nat} (hlength : ts.length = k * A.card)
    (hi : i ∈ A) : ts.countP (·.server? = some i) = k := by
  have hserved := hturns.servedIn hA hin hserving
  have hequitable : Set.EquitableOn (A : Set Nat) fun i => ts.countP (·.server? = some i) := by
    intro i j hi hj
    simp only [countP_server_eq hserved hi, countP_server_eq hserved hj,
      (hturns.rounds hA hin hserving).shards]
    exact count_range'_mod_le (hin i hi) (hin j hj) _ _
  have hsum : ∑ i ∈ A, ts.countP (·.server? = some i) = k * A.card :=
    (sum_countP_server hserved).trans hlength
  have hle : ∀ i ∈ A, k ≤ ts.countP (·.server? = some i) := by
    intro i hi
    have hle := Finset.EquitableOn.le hequitable hi
    rwa [hsum, Nat.mul_div_cancel _ hA.card_pos] at hle
  have heq := (Finset.sum_eq_sum_iff_of_le hle).mp (by simp [hsum, Nat.mul_comm])
  exact (heq i hi).symm

end Count

/-- Gets that are run one after another, with returns between them, are served in turn: while the
shards of `A` are able to serve and the others are not, each get is lent a connection by the first
shard of `A` after the one that served the get before. Over any number of gets in a row that is a
multiple of the size of `A`, the shards of `A` serve alike. On every factory the next get comes to
its end as well. -/
theorem get_round_robin (hopen : p.closed = false) (hA : A.Nonempty)
    (hin : ∀ i ∈ A, i < p.shards.length) (hturns : p.Turns ts q) (hserving : Serving A ts) :
    (∀ t ∈ ts, ∃ i c, i ∈ A ∧ t.server? = some i ∧ t.result = .ok c) ∧
    (∀ us t t' vs i j, ts = us ++ t :: t' :: vs → t.server? = some i → t'.server? = some j →
      NextOf p.shards.length A i j) ∧
    (∀ us vs ws k, ts = us ++ vs ++ ws → vs.length = k * A.card →
      ∀ i ∈ A, vs.countP (·.server? = some i) = k) ∧
    ∀ f : Factory, ∃ t r, q.Gets t r ∧ f.Makes [] q.now (t.visits.flatMap Visit.exchanges) := by
  refine ⟨fun t ht => ?_, ?_, ?_, fun f => ?_⟩
  · obtain ⟨vs, v, c, -, -, hv, hserver, hresult⟩ := hturns.servedIn hA hin hserving t ht
    exact ⟨v.shard, c, hv, hserver, hresult⟩
  · rintro us t t' vs i j rfl hi hj
    obtain ⟨hbefore, hafter⟩ := List.forall_mem_append.mp hserving
    obtain ⟨hfirst, hsecond, -⟩ : _ ∧ _ ∧ _ := by simpa using hafter
    obtain ⟨o, hus, hrest⟩ := hturns.exists_of_append
    obtain ⟨o', r, hidle, hgets, hrest⟩ := hrest.exists_of_cons
    obtain ⟨r', s, hidle', hgets', -⟩ := hrest.exists_of_cons
    have hlength : o'.shards.length = p.shards.length :=
      hidle.length.trans (hus.rounds hA hin hbefore).length
    rw [← hlength]
    exact hgets.nextOf hA (fun i hi => hlength ▸ hin i hi) hfirst hidle' hgets' hsecond hi hj
  · rintro us vs ws k rfl hlength i hi
    obtain ⟨hserving, -⟩ := List.forall_mem_append.mp hserving
    obtain ⟨hbefore, hwindow⟩ := List.forall_mem_append.mp hserving
    obtain ⟨o, hturns, -⟩ := hturns.exists_of_append
    obtain ⟨o', hus, hvs⟩ := hturns.exists_of_append
    have hlength' := (hus.rounds hA hin hbefore).length
    exact hvs.countP_server hA (fun i hi => hlength' ▸ hin i hi) hwindow hlength hi
  · have hrounds := hturns.rounds hA hin hserving
    refine exists_gets (hrounds.closed.trans hopen) ?_ f
    rw [hrounds.length]
    exact Nat.zero_lt_of_lt (hin _ hA.choose_spec)

/-- A get passes over the first of three shards, which is out of service, and the second dials. -/
def passing : Turn where
  visits := [⟨0, [], none⟩, ⟨1, [⟨.dial 1 "b:1", ⟨1⟩, .ok ()⟩], some (.ok 0)⟩]
  result := .ok 0

def passed : Pool := ((oneOut.get.1.setTime ⟨1⟩).resumeGet ⟨0, 1, .dialing⟩ (.ok ())).1

/-- The third shard dials for the next get. -/
def following : Turn where
  visits := [⟨2, [⟨.dial 2 "c:1", ⟨2⟩, .ok ()⟩], some (.ok 1)⟩]
  result := .ok 1

def followed : Pool := ((passed.get.1.setTime ⟨2⟩).resumeGet ⟨2, 0, .dialing⟩ (.ok ())).1

/-- The second shard is next again. It lends the connection that has come back to it. -/
def repeating : Turn where
  visits := [⟨0, [], none⟩, ⟨1, [], some (.ok 0)⟩]
  result := .ok 0

/-- Two shards of three take turns at three gets, with a return before the last of them. -/
theorem get_round_robin_three :
    oneOut.closed = false ∧ ({1, 2} : Finset Nat).Nonempty ∧
      (∀ i ∈ ({1, 2} : Finset Nat), i < oneOut.shards.length) ∧
      Serving {1, 2} [passing, following, repeating] ∧
      ∃ q, oneOut.Turns [passing, following, repeating] q ∧
        NextOf 3 {1, 2} 1 2 ∧ NextOf 3 {1, 2} 2 1 ∧
        ∀ i ∈ ({1, 2} : Finset Nat), [following, repeating].countP (·.server? = some i) = 1 := by
  have hpassing : oneOut.Gets passing passed :=
    ⟨.of_waits (s := ⟨0, 1, .dialing⟩) rfl rfl (by decide) <| .of_done rfl,
      .passed rfl <| .served rfl <| .of_waits (s := .dialing) rfl rfl (by decide) <| .of_done rfl,
      .inl ⟨[⟨0, [], none⟩], _, 0, rfl, rfl, by simp [Visit.lent?], rfl⟩⟩
  have hfollowing : passed.Gets following followed :=
    ⟨.of_waits (s := ⟨2, 0, .dialing⟩) rfl rfl (by decide) <| .of_done rfl,
      .served rfl <| .of_waits (s := .dialing) rfl rfl (by decide) <| .of_done rfl,
      .inl ⟨[], _, 1, rfl, rfl, by simp, rfl⟩⟩
  have hreturn : (returning 0).Ends (followed.put 0 false) [] (followed.put 0 false).1 (.ok ()) :=
    .of_done rfl
  have hrepeating : (followed.put 0 false).1.Gets repeating (followed.put 0 false).1.get.1 :=
    ⟨.of_done rfl, .passed rfl <| .served rfl <| .of_done rfl,
      .inl ⟨[⟨0, [], none⟩], _, 0, rfl, rfl, by simp [Visit.lent?], rfl⟩⟩
  have hturns : oneOut.Turns [passing, following, repeating] _ :=
    .get hpassing <| .get hfollowing <| .put hreturn <| .get hrepeating <| .nil _
  have hserving : Serving {1, 2} [passing, following, repeating] := by
    simp [Serving, passing, following, repeating, Visit.lent?]
  have hin : ∀ i ∈ ({1, 2} : Finset Nat), i < oneOut.shards.length := by decide
  obtain ⟨-, hnext, hcount, -⟩ := get_round_robin rfl (by decide) hin hturns hserving
  exact ⟨rfl, by decide, hin, hserving, _, hturns, hnext [] _ _ [repeating] _ _ rfl rfl rfl,
    hnext [passing] _ _ [] _ _ rfl rfl rfl,
    hcount [passing] [following, repeating] [] 1 rfl rfl⟩

end Pool

end QuorumPool
