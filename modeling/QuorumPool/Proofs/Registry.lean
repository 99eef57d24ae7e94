import QuorumPool.Proofs.Retirement
import QuorumPool.Scripted.Network

namespace QuorumPool

variable {C : Client}

namespace RedisSettings

variable {s : RedisSettings}

/-- Pools that break no rule have names of their own. -/
theorem names_of_namedFaults {earlier : List String} {pools : List PoolSettings}
    (hfaults : namedFaults earlier pools = []) : (pools.map (·.name)).Nodup ∧
      ∀ t ∈ pools, t.name.isEmpty = false ∧ t.name ∉ earlier := by
  induction pools generalizing earlier with
  | nil => simp
  | cons s rest ih =>
    simp only [namedFaults, List.append_eq_nil_iff, ite_eq_right_iff, List.cons_ne_self,
      imp_false, Bool.not_eq_true] at hfaults
    obtain ⟨⟨⟨-, hnamed⟩, hnew⟩, hrest⟩ := hfaults
    obtain ⟨hnodup, hlater⟩ := ih hrest
    have hself : s.name ∉ earlier := by simpa using hnew
    refine ⟨List.nodup_cons.mpr ⟨?_, hnodup⟩, List.forall_mem_cons.mpr ⟨⟨hnamed, hself⟩, ?_⟩⟩
    · intro hmem
      obtain ⟨t, ht, hname⟩ := List.mem_map.mp hmem
      exact (hlater t ht).2 (hname ▸ List.mem_cons_self)
    · intro t ht
      obtain ⟨hne, hother⟩ := hlater t ht
      exact ⟨hne, fun hmem => hother (List.mem_cons_of_mem _ hmem)⟩

theorem exists_default (hvalid : s.validate = .ok ()) (henabled : s.enabled = true) :
    ∃ d, s.default = some d := by
  have hfaults := validate_eq_ok_iff.mp hvalid
  simp only [faults, henabled, if_true, List.append_eq_nil_iff] at hfaults
  cases hdefault : s.default with
  | none => simp [hdefault] at hfaults
  | some d => exact ⟨d, rfl⟩

theorem names_of_validate (hvalid : s.validate = .ok ()) (henabled : s.enabled = true) :
    (s.connection.map (·.name)).Nodup ∧ ∀ t ∈ s.connection, t.name.isEmpty = false := by
  have hfaults := validate_eq_ok_iff.mp hvalid
  simp only [faults, henabled, if_true, List.append_eq_nil_iff] at hfaults
  obtain ⟨hnodup, hnames⟩ := names_of_namedFaults hfaults.2
  exact ⟨hnodup, fun t ht => (hnames t ht).1⟩

end RedisSettings

namespace Registry

section Named

variable {π : Type} {name : String} {p : π} {named : List (String × π)}

theorem insertNamed_perm (hnew : ∀ x ∈ named, x.1 ≠ name) :
    (insertNamed name p named).Perm ((name, p) :: named) := by
  induction named with
  | nil => exact .refl _
  | cons x rest ih =>
    obtain ⟨m, q⟩ := x
    obtain ⟨hne, hnew⟩ := List.forall_mem_cons.mp hnew
    unfold insertNamed
    split
    · exact .refl _
    · rw [if_neg (Ne.symm hne)]
      exact ((ih hnew).cons (m, q)).trans (.swap ..)

/-- A new pool is put into its place. -/
theorem ascending_insertNamed (hnew : ∀ x ∈ named, x.1 ≠ name)
    (hnamed : named.Pairwise fun x y => x.1 < y.1) :
    (insertNamed name p named).Pairwise fun x y => x.1 < y.1 := by
  induction named with
  | nil => exact List.pairwise_singleton _ _
  | cons x rest ih =>
    obtain ⟨m, q⟩ := x
    obtain ⟨hne, hnew⟩ := List.forall_mem_cons.mp hnew
    obtain ⟨hfirst, hrest⟩ := List.pairwise_cons.mp hnamed
    unfold insertNamed
    split
    · rename_i hlt
      refine List.pairwise_cons.mpr ⟨List.forall_mem_cons.mpr ⟨hlt, fun y hy => ?_⟩, hnamed⟩
      exact lt_trans hlt (hfirst y hy)
    · rename_i hge
      rw [if_neg (Ne.symm hne)]
      refine List.pairwise_cons.mpr ⟨fun y hy => ?_, ih hnew hrest⟩
      obtain rfl | hy := List.mem_cons.mp ((insertNamed_perm hnew).mem_iff.mp hy)
      · exact lt_of_le_of_ne (not_lt.mp hge) hne
      · exact hfirst y hy

theorem lookup_of_mem (hnodup : (named.map (·.1)).Nodup) (hmem : (name, p) ∈ named) :
    named.lookup name = some p := by
  obtain ⟨pre, post, rfl⟩ := List.append_of_mem hmem
  refine List.lookup_eq_some_iff.mpr ⟨pre, post, rfl, fun x hx => ?_⟩
  rw [List.map_append, List.nodup_append] at hnodup
  have hne := hnodup.2.2 x.1 (List.mem_map_of_mem hx) name List.mem_cons_self
  simpa using Ne.symm hne

end Named

/-- The registry holds a pool for each of the settings, as it is built from them: the default one
and others under their names. -/
structure Holds (r : Registry (RedisPool C)) (d : Option PoolSettings) (ts : List PoolSettings) :
    Prop where
  default : r.default = d.map .fresh
  named : r.named.Perm (ts.map fun t => (t.name, .fresh t))
  ascending : r.named.Pairwise fun x y => x.1 < y.1

/-- The pools were built in their order up to the first that failed, with `e`. The registry holds
those before it, and no address of one after it was tried. -/
inductive Stops (s : Scene C) (ts : List PoolSettings) (s' : Scene C) (r : Registry (RedisPool C))
    (e : Failure) : Prop
  | at {built t later k} : ts = built ++ t :: later →
      s.Verified (built.flatMap PoolSettings.trials) k → k.Fails t.trials s' e →
      r.pools.Perm (built.map .fresh) → Stops s ts s' r e

/-- What may come of building a registry. -/
inductive Builds (s : Scene C) (d : Option PoolSettings) (ts : List PoolSettings) :
    Scene C × Registry (RedisPool C) × Except Failure Unit → Prop
  | whole {s' r} : r.Holds d ts → s.Verified ((d.toList ++ ts).flatMap PoolSettings.trials) s' →
      Builds s d ts (s', r, .ok ())
  | part {s' r e} : Stops s (d.toList ++ ts) s' r e → Builds s d ts (s', r, .error e)

section Build

variable {s k : Scene C} {r : Registry (RedisPool C)} {d : Option PoolSettings} {t : PoolSettings}
  {ts done : List PoolSettings}

theorem Holds.pools_perm (hr : r.Holds d ts) : r.pools.Perm ((d.toList ++ ts).map .fresh) := by
  have hnamed : (r.named.map (·.2)).Perm (ts.map .fresh) := by
    have hmap := hr.named.map (·.2)
    rwa [List.map_map] at hmap
  have hdefault : r.default.toList = d.toList.map .fresh := by
    rw [hr.default]
    cases d <;> rfl
  rw [pools, List.map_append, hdefault]
  exact hnamed.append_left _

theorem Holds.insert (hr : r.Holds d ts) (hnew : ∀ u ∈ ts, u.name ≠ t.name) :
    (r.insert t.name (.fresh t)).Holds d (ts ++ [t]) := by
  have hnames : ∀ x ∈ r.named, x.1 ≠ t.name := by
    intro x hx
    obtain ⟨u, hu, rfl⟩ := List.mem_map.mp (hr.named.mem_iff.mp hx)
    exact hnew u hu
  refine ⟨hr.default, ?_, ascending_insertNamed hnames hr.ascending⟩
  rw [List.map_append]
  have hlast := List.perm_append_singleton (t.name, (RedisPool.fresh t : RedisPool C))
    (ts.map fun t => (t.name, .fresh t))
  exact (insertNamed_perm hnames).trans ((hr.named.cons _).trans hlast.symm)

/-- Building goes on with the pools that are left, of which each is put under its own name. -/
theorem builds_buildNamed (hr : r.Holds d done)
    (hverified : s.Verified ((d.toList ++ done).flatMap PoolSettings.trials) k)
    (hvalid : ∀ t ∈ ts, t.validate = .ok ()) (hnames : ((done ++ ts).map (·.name)).Nodup) :
    Builds s d (done ++ ts) (buildNamed k r ts) := by
  induction ts generalizing k r done with
  | nil =>
    rw [List.append_nil]
    exact .whole hr hverified
  | cons t rest ih =>
    obtain ⟨hown, hvalid⟩ := List.forall_mem_cons.mp hvalid
    unfold buildNamed
    obtain ⟨s', hs', hmore⟩ | ⟨s', e, hs', hfails⟩ := RedisPool.ofSettings_cases k hown
    · have hnew : ∀ u ∈ done, u.name ≠ t.name := by
        intro u hu hname
        rw [List.map_append, List.nodup_append] at hnames
        exact hnames.2.2 u.name (List.mem_map_of_mem hu) t.name (by simp) hname
      have hnext : s.Verified ((d.toList ++ (done ++ [t])).flatMap PoolSettings.trials) s' := by
        simpa using hverified.trans hmore
      rw [hs', ← List.singleton_append, ← List.append_assoc]
      exact ih (hr.insert hnew) hnext hvalid (by simpa using hnames)
    · rw [hs']
      exact .part (.at (List.append_assoc ..).symm hverified hfails hr.pools_perm)

theorem builds_build {settings : RedisSettings} (s : Scene C) (hvalid : settings.validate = .ok ())
    (henabled : settings.enabled = true) :
    Builds s settings.default settings.connection (build s settings) := by
  obtain ⟨d, hdefault⟩ := RedisSettings.exists_default hvalid henabled
  have hpools := RedisSettings.validate_pools hvalid henabled
  have hd : d ∈ settings.pools := List.mem_append_left _ (by simp [hdefault])
  have hnames := (RedisSettings.names_of_validate hvalid henabled).1
  unfold build
  rw [hdefault]
  dsimp only
  obtain ⟨s', hs', hfirst⟩ | ⟨s', e, hs', hfails⟩ := RedisPool.ofSettings_cases s (hpools d hd)
  · rw [hs']
    have hr : Holds (C := C) { default := some (.fresh d) } (some d) [] := ⟨rfl, .refl _, .nil⟩
    exact builds_buildNamed hr (by simpa using hfirst)
      (fun t ht => hpools t (List.mem_append_right _ ht)) hnames
  · rw [hs']
    exact .part (.at (List.nil_append _).symm .none hfails (.refl _))

end Build

/-- An attempt at a registry has failed with `e` and left the scene as `s'`. When it failed the scene
was `k`, and the pools that had been built were those of `r`; they were shut down. -/
structure Unwound (s : Scene C) (settings : RedisSettings) (s' : Scene C) (e : Failure)
    (k : Scene C) (r : Registry (RedisPool C)) : Prop where
  build : build s settings = (k, r, .error e)
  stops : Stops s settings.pools k r e
  scene : s' = (r.shutdown k).1
  /-- No server hears of the shutdown. -/
  reports : k.Reports s'
  down : ∀ p ∈ (r.shutdown k).2.pools, p.pool.Down
  /-- A shutdown would close the pools also if something had become of them in the meantime. -/
  retires : ∀ r', r.Pointwise RedisPool.Later r' → ∀ k,
    r'.Pointwise RedisPool.Retires (r'.shutdown k).2

section Init

variable {s s' : Scene C} {r r' : Registry (RedisPool C)} {settings : RedisSettings}

theorem Holds.keys_perm {d : Option PoolSettings} {ts : List PoolSettings} (hr : r.Holds d ts) :
    (r.named.map (·.1)).Perm (ts.map (·.name)) := by
  have hmap := hr.named.map (·.1)
  rwa [List.map_map] at hmap

theorem Holds.get_of_forall_ne {d : Option PoolSettings} {ts : List PoolSettings} {name : String}
    (hr : r.Holds d ts) (hname : ∀ t ∈ ts, t.name ≠ name) :
    r.get name = if name = defaultName then r.getDefault else .error (.unknownPool name) := by
  have hlookup : r.named.lookup name = none := by
    refine List.lookup_eq_none_iff.mpr fun x hx => ?_
    obtain ⟨t, ht, hkey⟩ := List.mem_map.mp (hr.keys_perm.mem_iff.mp (List.mem_map_of_mem hx))
    simpa [← hkey] using Ne.symm (hname t ht)
  simp [Registry.get, hlookup]

/-- A pool that breaks no rule has not been used when it is built. -/
theorem unused_fresh {t : PoolSettings} (hvalid : t.validate = .ok ()) :
    (RedisPool.fresh t : RedisPool C).pool.Unused := by
  have hempty : t.addresses.isEmpty = false := by
    simpa using PoolSettings.addresses_ne_nil hvalid
  obtain ⟨p, hcreate, hp⟩ : ∃ p, Pool.create t.poolConfig t.addresses .zero = .ok p ∧
      p.takeJournal.1 = (RedisPool.fresh t : RedisPool C).pool := by
    unfold Pool.create
    simp only [t.validate_poolConfig, hempty, bind, Except.bind]
    exact ⟨_, rfl, rfl⟩
  refine ⟨hp ▸ .report (.create hcreate), rfl, ?_, rfl⟩
  simp only [Pool.idleCount, RedisPool.fresh]
  generalize t.addresses = addresses
  induction addresses with
  | nil => rfl
  | cons a rest ih => simpa using ih

/-- No pool of settings that break no rule has been used when it is built. -/
theorem unused_of_perm {ts : List PoolSettings} (hvalid : ∀ t ∈ ts, t.validate = .ok ())
    (hr : r.pools.Perm (ts.map .fresh)) : ∀ p ∈ r.pools, p.pool.Unused := by
  intro p hp
  obtain ⟨t, ht, rfl⟩ := List.mem_map.mp (hr.mem_iff.mp hp)
  exact unused_fresh (hvalid t ht)

theorem Stops.unwound {k : Scene C} {e : Failure} (hstops : Stops s settings.pools k r e)
    (hbuild : Registry.build s settings = (k, r, .error e)) (hvalid : settings.validate = .ok ())
    (henabled : settings.enabled = true) : Unwound s settings (r.shutdown k).1 e k r := by
  have hunused : ∀ p ∈ r.pools, p.pool.Unused := by
    obtain ⟨hpools, -, -, hperm⟩ := hstops
    refine unused_of_perm (fun t ht => ?_) hperm
    have hmem : t ∈ settings.pools := hpools ▸ List.mem_append_left _ ht
    exact RedisSettings.validate_pools hvalid henabled t hmem
  have hreached : ∀ p ∈ r.pools, p.pool.Reached := fun p hp => (hunused p hp).reached
  have hdown := (retires_shutdown hreached (.refl .refl r) k).forall_pools
    (fun _ _ hp hpq => hpq.down hp.opened) hunused
  exact ⟨hbuild, hstops, rfl, reports_shutdown hunused k, hdown,
    fun _ => retires_shutdown hreached⟩

/-- How an attempt at a registry ends, if the settings are enabled. -/
theorem init_eq_of_enabled (s : Scene C) (henabled : settings.enabled = true) :
    (∃ e, settings.validate = .error e ∧ init s settings = (s, .error e)) ∨
      settings.validate = .ok () ∧
        ((∃ k r, r.Holds settings.default settings.connection ∧
            s.Verified (settings.pools.flatMap PoolSettings.trials) k ∧
            init s settings = (k.note (.registryStarted r.size), .ok r)) ∨
          ∃ k r e, Unwound s settings (r.shutdown k).1 e k r ∧
            init s settings = ((r.shutdown k).1, .error e)) := by
  unfold init
  simp only [henabled, Bool.not_true, Bool.false_eq_true, if_false]
  cases hvalid : settings.validate with
  | error e => exact .inl ⟨e, rfl, rfl⟩
  | ok _ =>
    refine .inr ⟨rfl, ?_⟩
    have hbuilds := builds_build s hvalid henabled
    rcases hbuild : build s settings with ⟨k, r, e | _⟩ <;> rw [hbuild] at hbuilds
    · cases hbuilds with
      | part hstops => exact .inr ⟨k, r, e, hstops.unwound hbuild hvalid henabled, rfl⟩
    · cases hbuilds with
      | whole hr hverified => exact .inl ⟨k, r, hr, hverified, rfl⟩

/-- Two servers, of which the second one takes connections as given. -/
def pair (mode : ServerMode) : Scene scripted :=
  { network := ({ servers := [("a", 1, {}), ("b", 1, { mode })] } : Network) }

end Init

end Registry

end QuorumPool
