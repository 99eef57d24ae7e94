import QuorumPool.Proofs.Registry

namespace QuorumPool.Registry

/-- Where a registry keeps a pool. -/
inductive Key where
  | default
  | named (name : String)

/-- The registry with each pool beside its key, which tells the pool from one that is equal. -/
def keyed {π : Type} (r : Registry π) : Registry (Key × π) :=
  { default := r.default.map (.default, ·)
    named := r.named.map fun x => (x.1, .named x.1, x.2) }

section Keyed

variable {π : Type} {r : Registry π} {name : String} {p : π}

/-- Keys have no part in what is found. -/
theorem get_keyed (r : Registry π) (name : String) :
    (r.keyed.get name).map (·.2) = r.get name := by
  have hnamed : ∀ named : List (String × π),
      (named.map fun x => (x.1, Key.named x.1, x.2)).lookup name =
        (named.lookup name).map (.named name, ·) := by
    intro named
    induction named with
    | nil => rfl
    | cons x rest ih =>
      obtain ⟨m, q⟩ := x
      by_cases hname : name = m
      · simp [hname]
      · have hkey : (name == m) = false := by simpa using hname
        simp only [List.map_cons, List.lookup_cons, hkey, ih]
  unfold Registry.get
  rw [keyed, hnamed]
  cases r.named.lookup name with
  | some p => rfl
  | none =>
    unfold getDefault
    cases r.default <;> by_cases hname : name = defaultName <;> simp [hname, Except.map]

theorem pools_keyed (r : Registry π) : r.keyed.pools.map (·.2) = r.pools := by
  obtain ⟨default, named⟩ := r
  cases default <;> simp [keyed, pools]

theorem keys_keyed (r : Registry π) : r.keyed.named.map (·.1) = r.named.map (·.1) := by
  simp [keyed]

theorem get_keyed_of_mem (hnodup : (r.named.map (·.1)).Nodup) (hmem : (name, p) ∈ r.named) :
    r.keyed.get name = .ok (.named name, p) := by
  rw [← keys_keyed] at hnodup
  have hkeyed : (name, .named name, p) ∈ r.keyed.named := List.mem_map_of_mem hmem
  simp [Registry.get, lookup_of_mem hnodup hkeyed]

theorem get_keyed_of_not_mem (hname : name ∉ r.named.map (·.1)) :
    r.keyed.get name =
      if name = defaultName then r.keyed.getDefault else .error (.unknownPool name) := by
  rw [← keys_keyed] at hname
  have hlookup : r.keyed.named.lookup name = none := by
    refine List.lookup_eq_none_iff.mpr fun x hx => ?_
    have hne : name ≠ x.1 := fun heq => hname (heq ▸ List.mem_map_of_mem hx)
    simpa using hne
  simp [Registry.get, hlookup]

end Keyed

variable {C : Client} {s s' : Scene C} {r : Registry (RedisPool C)} {settings : RedisSettings}
  {d : PoolSettings} {name : String}

/-- A pool of the registry is what the registry has under the name of the pool. -/
def Finds (r : Registry (RedisPool C)) (x : Key × RedisPool C) : Prop :=
  r.keyed.get x.2.name = .ok x

/-- A pool is the default one, and has the name of the default pool, which is also that of a named
pool. -/
structure Shadowed (r : Registry (RedisPool C)) (x : Key × RedisPool C) : Prop where
  default : x.1 = .default
  name : x.2.name = defaultName
  named : ∃ p, (defaultName, p) ∈ r.named

/-- How a registry finds its pools by their own names. -/
structure Finding (settings : RedisSettings) (r : Registry (RedisPool C)) : Prop where
  /-- A named pool is found under its name. -/
  named : ∀ x ∈ r.keyed.named, r.Finds x.2
  /-- The default pool is found under its name if and only if that is the name of the default pool
  and no other pool has it. -/
  default : ∀ p, r.default = some p → ∃ d, settings.default = some d ∧
    (r.Finds (.default, p) ↔
      d.displayName = defaultName ∧ ∀ t ∈ settings.connection, t.name ≠ defaultName)
  /-- Under any other name of its own there is no pool, or a named one. -/
  hidden : ∀ d, settings.enabled = true → settings.default = some d → d.displayName ≠ defaultName →
    (∀ t ∈ settings.connection, t.name ≠ d.displayName) →
    r.get d.displayName = .error (.unknownPool d.displayName)

section Held

variable (hr : r.Holds settings.default settings.connection)
  (hnodup : (settings.connection.map (·.name)).Nodup)

include hr

theorem Holds.mem_names : name ∈ r.named.map (·.1) ↔ ∃ t ∈ settings.connection, t.name = name := by
  rw [hr.keys_perm.mem_iff, List.mem_map]

/-- A name that a named pool has in the settings belongs to a pool. -/
theorem Holds.exists_named (hname : ∃ t ∈ settings.connection, t.name = name) :
    ∃ p, (name, p) ∈ r.named := by
  obtain ⟨x, hx, rfl⟩ := List.mem_map.mp (hr.mem_names.mpr hname)
  exact ⟨x.2, hx⟩

include hnodup

/-- A named pool is found under its own name. -/
theorem Holds.finds_named (hnames : ∀ t ∈ settings.connection, t.name.isEmpty = false)
    {x : String × Key × RedisPool C} (hx : x ∈ r.keyed.named) : r.Finds x.2 := by
  obtain ⟨⟨name, p⟩, hp, rfl⟩ := List.mem_map.mp hx
  obtain ⟨t, ht, heq⟩ := List.mem_map.mp (hr.named.mem_iff.mp hp)
  obtain ⟨rfl, rfl⟩ := Prod.mk.inj heq
  have hname : (RedisPool.fresh t : RedisPool C).name = t.name := by
    simp [RedisPool.fresh, PoolSettings.displayName, hnames t ht]
  unfold Finds
  dsimp only
  rw [hname]
  exact get_keyed_of_mem (hr.keys_perm.nodup_iff.mpr hnodup) hp

/-- The default pool is found under its own name only if that is the name of the default pool and of
no other. -/
theorem Holds.finds_default_iff (hd : settings.default = some d) :
    r.Finds (.default, .fresh d) ↔
      d.displayName = defaultName ∧ ∀ t ∈ settings.connection, t.name ≠ defaultName := by
  have hdefault : r.keyed.default = some (.default, .fresh d) := by
    rw [keyed, hr.default, hd]
    rfl
  change r.keyed.get d.displayName = .ok (.default, .fresh d) ↔ _
  by_cases htaken : ∃ t ∈ settings.connection, t.name = d.displayName
  · obtain ⟨p, hp⟩ := hr.exists_named htaken
    obtain ⟨t, ht, htname⟩ := htaken
    rw [get_keyed_of_mem (hr.keys_perm.nodup_iff.mpr hnodup) hp]
    refine iff_of_false (fun hsame => ?_) fun ⟨hown, hnone⟩ => hnone t ht (htname.trans hown)
    -- what has the name of the default pool has another key
    cases hsame
  · rw [get_keyed_of_not_mem (mt hr.mem_names.mp htaken)]
    split
    · rename_i heq
      refine iff_of_true (by simp [getDefault, hdefault]) ⟨heq, fun t ht htname => ?_⟩
      exact htaken ⟨t, ht, htname.trans heq.symm⟩
    · rename_i hne
      exact iff_of_false (fun h => by cases h) fun h => hne h.1

end Held

/-- A registry that comes into being from settings that are enabled holds what they describe. -/
theorem holds_of_init (henabled : settings.enabled = true) (hinit : init s settings = (s', .ok r)) :
    settings.validate = .ok () ∧ r.Holds settings.default settings.connection := by
  obtain ⟨e, -, hrefused⟩ | ⟨hvalid, ⟨k, r', hr, -, hbuilt⟩ | ⟨k, r', e, -, hfailed⟩⟩ :=
    init_eq_of_enabled s henabled
  · cases hinit.symm.trans hrefused
  · obtain ⟨-, hsame⟩ := Prod.mk.inj (hinit.symm.trans hbuilt)
    exact ⟨hvalid, Except.ok.inj hsame ▸ hr⟩
  · cases hinit.symm.trans hfailed

private theorem eq_empty_of_init (hdisabled : settings.enabled = false)
    (hinit : init s settings = (s', .ok r)) : r = {} := by
  simp only [init, hdisabled, Bool.not_false, if_true] at hinit
  exact (Except.ok.inj (Prod.mk.inj hinit).2).symm

theorem Holds.finding (hr : r.Holds settings.default settings.connection)
    (hvalid : settings.validate = .ok ()) (henabled : settings.enabled = true) :
    Finding settings r := by
  obtain ⟨hnodup, hnames⟩ := RedisSettings.names_of_validate hvalid henabled
  obtain ⟨d, hd⟩ := RedisSettings.exists_default hvalid henabled
  refine ⟨fun x hx => hr.finds_named hnodup hnames hx, fun p hp => ⟨d, hd, ?_⟩,
    fun d' _ _ hne hfree => ?_⟩
  · have hpool : r.default = some (.fresh d) := by rw [hr.default, hd, Option.map_some]
    obtain rfl := Option.some.inj (hp.symm.trans hpool)
    exact hr.finds_default_iff hnodup hd
  · rw [hr.get_of_forall_ne hfree, if_neg hne]

/-- Every pool is found under its own name or shadowed, unless the default one has another name. -/
theorem Holds.forall_finds_iff (hr : r.Holds settings.default settings.connection)
    (hvalid : settings.validate = .ok ()) (henabled : settings.enabled = true)
    (hd : settings.default = some d) :
    (∀ x ∈ r.keyed.pools, r.Finds x ∨ r.Shadowed x) ↔ d.displayName = defaultName := by
  obtain ⟨hnodup, hnames⟩ := RedisSettings.names_of_validate hvalid henabled
  have hiff := hr.finds_default_iff hnodup hd
  have hpools : r.keyed.pools = (.default, .fresh d) :: r.keyed.named.map (·.2) := by
    simp [pools, keyed, hr.default, hd]
  rw [hpools, List.forall_mem_cons]
  constructor
  · rintro ⟨hfinds | ⟨-, hname, -⟩, -⟩
    · exact (hiff.mp hfinds).1
    · exact hname
  · intro hown
    refine ⟨?_, fun x hx => ?_⟩
    · by_cases hshadowed : ∃ t ∈ settings.connection, t.name = defaultName
      · exact .inr ⟨rfl, hown, hr.exists_named hshadowed⟩
      · exact .inl (hiff.mpr ⟨hown, fun t ht hname => hshadowed ⟨t, ht, hname⟩⟩)
    · obtain ⟨y, hy, rfl⟩ := List.mem_map.mp hx
      exact .inl (hr.finds_named hnodup hnames hy)

/-- Let a registry have come into being. Each pool of it is found under its own name, unless it is
the default one, has the name of the default pool and is shadowed by a named pool of that name, if
and only if the default pool was given no other name in the settings. One that was is not found
under its name: no pool is, or another one. -/
theorem finds_iff (hinit : init s settings = (s', .ok r)) :
    Finding settings r ∧
      ((∀ x ∈ r.keyed.pools, r.Finds x ∨ r.Shadowed x) ↔
        (settings.enabled = true → ∀ d, settings.default = some d →
          d.displayName = defaultName)) := by
  cases henabled : settings.enabled with
  | false =>
    obtain rfl := eq_empty_of_init henabled hinit
    refine ⟨⟨fun x hx => ?_, fun p hp => ?_, fun d h => ?_⟩,
      iff_of_true (fun x hx => ?_) fun h => ?_⟩
    · cases hx
    · cases hp
    · cases henabled.symm.trans h
    · cases hx
    · cases h
  | true =>
    obtain ⟨hvalid, hr⟩ := holds_of_init henabled hinit
    obtain ⟨d, hd⟩ := RedisSettings.exists_default hvalid henabled
    refine ⟨hr.finding hvalid henabled, (hr.forall_finds_iff hvalid henabled hd).trans ?_⟩
    simp [hd]

/-- A default pool with a name of its own, beside a named pool. -/
def renamedDefault : RedisSettings :=
  { enabled := true
    default := some { name := "main", dsn := "a:1" }
    connection := [{ name := "sessions", dsn := "b:1" }] }

/-- The named pool is found under its name and the default one is not. -/
theorem finds_iff_renamed : ∃ s r, init (pair .serving) renamedDefault = (s, .ok r) ∧
    r.pools =
        [.fresh { name := "main", dsn := "a:1" }, .fresh { name := "sessions", dsn := "b:1" }] ∧
      r.get "sessions" = .ok (.fresh { name := "sessions", dsn := "b:1" }) ∧
      r.get "main" = .error (.unknownPool "main") ∧
      ¬∀ x ∈ r.keyed.pools, r.Finds x ∨ r.Shadowed x := by
  let r : Registry (RedisPool scripted) :=
    { default := some (.fresh { name := "main", dsn := "a:1" })
      named := [("sessions", .fresh { name := "sessions", dsn := "b:1" })] }
  obtain ⟨s, hinit⟩ : ∃ s, init (pair .serving) renamedDefault = (s, .ok r) := ⟨_, rfl⟩
  obtain ⟨hfinding, hiff⟩ := finds_iff hinit
  refine ⟨s, r, hinit, rfl, ?_, hfinding.hidden _ rfl rfl (by decide) (by decide), fun hall => ?_⟩
  · have hfinds : r.keyed.get "sessions" = .ok (.named "sessions", _) :=
      hfinding.named _ List.mem_cons_self
    rw [← get_keyed, hfinds]
    rfl
  · exact absurd (hiff.mp hall rfl _ rfl) (by decide)

end QuorumPool.Registry
