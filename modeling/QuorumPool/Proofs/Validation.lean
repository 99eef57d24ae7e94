import QuorumPool.Proofs.AddressLists
import QuorumPool.Proofs.Startup

namespace QuorumPool

namespace PoolSettings

/-- Whether there is more than blanks in some segment of the line of addresses. -/
def Addressed (s : PoolSettings) : Prop := ∃ piece ∈ s.dsn.toList.splitOn ';', ¬Text.Blank piece

/-- Whether each timeout lets any time pass. -/
structure Patient (s : PoolSettings) : Prop where
  connect : 0 < s.connectTimeoutMs
  read : 0 < s.readTimeoutMs
  write : 0 < s.writeTimeoutMs

/-- The settings of one pool are well formed. -/
structure WellFormed (s : PoolSettings) : Prop where
  addressed : s.Addressed
  db : 0 ≤ s.db
  patient : s.Patient

/-- The rule is broken, and those before it are kept. -/
inductive FirstFault (s : PoolSettings) : PoolFault → Prop
  | noAddress : ¬s.Addressed → FirstFault s .noAddress
  | negativeDb : s.Addressed → s.db < 0 → FirstFault s .negativeDb
  | zeroTimeout : s.Addressed → 0 ≤ s.db → ¬s.Patient → FirstFault s .zeroTimeout

variable {s : PoolSettings} {fault : PoolFault}

theorem addressed_iff : s.Addressed ↔ s.addresses.isEmpty = false := by
  rw [Addressed, ← Bool.not_eq_true, List.isEmpty_iff, addresses, Settings.addressesOf_eq_nil_iff]
  simp

theorem patient_iff :
    s.Patient ↔ ¬(s.connectTimeoutMs = 0 ∨ s.readTimeoutMs = 0 ∨ s.writeTimeoutMs = 0) := by
  constructor
  · rintro ⟨hconnect, hread, hwrite⟩
    omega
  · intro hnone
    constructor <;> omega

/-- The first rule that the settings of one pool break heads those that they break. -/
theorem FirstFault.head?_faults (hfault : s.FirstFault fault) : s.faults.head? = some fault := by
  cases hfault with
  | noAddress hno =>
    rw [addressed_iff, Bool.not_eq_false] at hno
    simp [faults, hno]
  | negativeDb haddressed hdb =>
    rw [addressed_iff] at haddressed
    simp [faults, haddressed, hdb]
  | zeroTimeout haddressed hdb hno =>
    rw [addressed_iff] at haddressed
    rw [patient_iff, not_not] at hno
    simp [faults, haddressed, not_lt.mpr hdb, hno]

theorem WellFormed.faults_eq_nil (hs : s.WellFormed) : s.faults = [] := by
  have haddressed := addressed_iff.mp hs.addressed
  have hpatient := patient_iff.mp hs.patient
  simp [faults, haddressed, not_lt.mpr hs.db, hpatient]

theorem wellFormed_or_firstFault (s : PoolSettings) : s.WellFormed ∨ ∃ fault, s.FirstFault fault := by
  by_cases haddressed : s.Addressed
  swap
  · exact .inr ⟨_, .noAddress haddressed⟩
  obtain hdb | hdb := lt_or_ge s.db 0
  · exact .inr ⟨_, .negativeDb haddressed hdb⟩
  by_cases hpatient : s.Patient
  · exact .inl ⟨haddressed, hdb, hpatient⟩
  · exact .inr ⟨_, .zeroTimeout haddressed hdb hpatient⟩

end PoolSettings

namespace RedisSettings

/-- Pools that are found by their names are well formed, and each has a name of its own. -/
structure Entries (ts : List PoolSettings) : Prop where
  wellFormed : ∀ t ∈ ts, t.WellFormed
  named : ∀ t ∈ ts, t.name ≠ ""
  distinct : (ts.map (·.name)).Nodup

/-- The settings of all pools are well formed. -/
structure WellFormed (s : RedisSettings) : Prop where
  default : ∃ d, s.default = some d ∧ d.WellFormed
  connection : Entries s.connection

/-- The first rule that a pool breaks that is found by its name, when those before it have the names. -/
inductive EntryFault (names : List String) (t : PoolSettings) : RedisFault → Prop
  | own {fault} : t.FirstFault fault → EntryFault names t (.pool t.displayName fault)
  | unnamed : t.WellFormed → t.name = "" → EntryFault names t .unnamed
  | duplicate : t.WellFormed → t.name ≠ "" → t.name ∈ names → EntryFault names t (.duplicate t.name)

/-- The rule is broken, and those before it are kept. -/
inductive FirstFault (s : RedisSettings) : RedisFault → Prop
  | noDefault : s.default = none → FirstFault s .noDefault
  | default {d fault} : s.default = some d → d.FirstFault fault →
      FirstFault s (.pool d.displayName fault)
  | entry {d before t later fault} : s.default = some d → d.WellFormed →
      s.connection = before ++ t :: later → Entries before →
      EntryFault (before.map (·.name)) t fault → FirstFault s fault

variable {s : RedisSettings} {names : List String} {t : PoolSettings} {fault : RedisFault}
  {before ts : List PoolSettings}

/-- The rules that one pool breaks that is found by its name, when those before it have the names. -/
def entryFaults (names : List String) (t : PoolSettings) : List RedisFault :=
  ownFaults t ++ (if t.name.isEmpty then [.unnamed] else [])
    ++ (if names.contains t.name then [.duplicate t.name] else [])

private theorem namedFaults_cons (names : List String) (t : PoolSettings) (ts : List PoolSettings) :
    namedFaults names (t :: ts) = entryFaults names t ++ namedFaults (t.name :: names) ts := rfl

theorem ownFaults_eq_nil (ht : t.WellFormed) : ownFaults t = [] :=
  List.map_eq_nil_iff.mpr ht.faults_eq_nil

theorem head?_ownFaults {fault : PoolFault} (hfault : t.FirstFault fault) :
    (ownFaults t).head? = some (.pool t.displayName fault) := by
  rw [ownFaults, List.head?_map, hfault.head?_faults, Option.map_some]

private theorem entryFaults_eq_nil (ht : t.WellFormed) (hname : t.name ≠ "")
    (hnew : t.name ∉ names) :
    entryFaults names t = [] := by
  simp [entryFaults, ownFaults_eq_nil ht, hname, hnew]

theorem EntryFault.head?_entryFaults (hfault : EntryFault names t fault) :
    (entryFaults names t).head? = some fault := by
  cases hfault with
  | own hown => simp [entryFaults, head?_ownFaults hown]
  | unnamed ht hname => simp [entryFaults, ownFaults_eq_nil ht, hname]
  | duplicate ht hname hmem => simp [entryFaults, ownFaults_eq_nil ht, hname, hmem]

/-- Pools that keep the rules among themselves, and have none of the names before them, add nothing
to what those after them break. -/
theorem Entries.namedFaults_append (hbefore : Entries before)
    (hnew : ∀ t ∈ before, t.name ∉ names) (ts : List PoolSettings) :
    namedFaults names (before ++ ts) = namedFaults ((before.map (·.name)).reverse ++ names) ts := by
  induction before generalizing names with
  | nil => rfl
  | cons t rest ih =>
    obtain ⟨hwell, hnamed, hdistinct⟩ := hbefore
    obtain ⟨ht, hwell⟩ := List.forall_mem_cons.mp hwell
    obtain ⟨hname, hnamed⟩ := List.forall_mem_cons.mp hnamed
    obtain ⟨hself, hnew⟩ := List.forall_mem_cons.mp hnew
    obtain ⟨hown, hdistinct⟩ := List.nodup_cons.mp hdistinct
    have hlater : ∀ u ∈ rest, u.name ∉ t.name :: names := by
      intro u hu hmem
      obtain heq | hmem := List.mem_cons.mp hmem
      · exact hown (List.mem_map.mpr ⟨u, hu, heq⟩)
      · exact hnew u hu hmem
    rw [List.cons_append, namedFaults_cons, entryFaults_eq_nil ht hname hself, List.nil_append,
      ih ⟨hwell, hnamed, hdistinct⟩ hlater]
    simp

theorem Entries.namedFaults_nil_append (hbefore : Entries before) (ts : List PoolSettings) :
    namedFaults [] (before ++ ts) = namedFaults (before.map (·.name)).reverse ts := by
  have happend : namedFaults [] (before ++ ts) =
      namedFaults ((before.map (·.name)).reverse ++ []) ts := hbefore.namedFaults_append (by simp) ts
  rwa [List.append_nil] at happend

theorem EntryFault.reverse (hfault : EntryFault names t fault) : EntryFault names.reverse t fault := by
  cases hfault with
  | own hown => exact .own hown
  | unnamed ht hname => exact .unnamed ht hname
  | duplicate ht hname hmem => exact .duplicate ht hname (List.mem_reverse.mpr hmem)

/-- The first rule that the settings of all pools break heads those that they break. -/
theorem FirstFault.head?_faults (hfault : s.FirstFault fault) (henabled : s.enabled = true) :
    s.faults.head? = some fault := by
  cases hfault with
  | noDefault hnone => simp [faults, henabled, hnone]
  | default hd hown => simp [faults, henabled, hd, head?_ownFaults hown]
  | entry hd hwell hconnection hbefore hentry =>
    have hhead := hentry.reverse.head?_entryFaults
    have hnamed := hbefore.namedFaults_nil_append
    simp [faults, henabled, hd, ownFaults_eq_nil hwell, hconnection, hnamed, namedFaults_cons, hhead]

theorem WellFormed.faults_eq_nil (hs : s.WellFormed) : s.faults = [] := by
  obtain ⟨⟨d, hd, hwell⟩, hconnection⟩ := hs
  have hnamed := hconnection.namedFaults_nil_append []
  rw [List.append_nil] at hnamed
  simp [faults, hd, ownFaults_eq_nil hwell, hnamed, namedFaults]

/-- Among pools that are found by their names there is a first that breaks a rule, unless none does. -/
theorem entries_or_entryFault (ts : List PoolSettings) : Entries ts ∨
    ∃ before t later fault, ts = before ++ t :: later ∧ Entries before ∧
      EntryFault (before.map (·.name)) t fault := by
  induction ts using List.reverseRecOn with
  | nil => exact .inl ⟨by simp, by simp, by simp⟩
  | append_singleton ts t ih =>
    obtain hentries | ⟨before, u, later, fault, rfl, hbefore, hfault⟩ := ih
    swap
    · exact .inr ⟨before, u, later ++ [t], fault, by simp, hbefore, hfault⟩
    obtain ht | ⟨fault, hfault⟩ := t.wellFormed_or_firstFault
    swap
    · exact .inr ⟨ts, t, [], _, rfl, hentries, .own hfault⟩
    by_cases hname : t.name = ""
    · exact .inr ⟨ts, t, [], _, rfl, hentries, .unnamed ht hname⟩
    by_cases hmem : t.name ∈ ts.map (·.name)
    · exact .inr ⟨ts, t, [], _, rfl, hentries, .duplicate ht hname hmem⟩
    · refine .inl ⟨?_, ?_, ?_⟩
      · exact List.forall_mem_append.mpr ⟨hentries.wellFormed, by simpa using ht⟩
      · exact List.forall_mem_append.mpr ⟨hentries.named, by simpa using hname⟩
      · rw [List.map_append, List.map_singleton, ← List.concat_eq_append]
        exact hentries.distinct.concat hmem

theorem wellFormed_or_firstFault (s : RedisSettings) :
    s.WellFormed ∨ ∃ fault, s.FirstFault fault := by
  cases hd : s.default with
  | none => exact .inr ⟨_, .noDefault hd⟩
  | some d =>
    obtain hwell | ⟨fault, hfault⟩ := d.wellFormed_or_firstFault
    swap
    · exact .inr ⟨_, .default hd hfault⟩
    obtain hentries | ⟨before, t, later, fault, hconnection, hbefore, hfault⟩ :=
      entries_or_entryFault s.connection
    · exact .inl ⟨⟨d, hd, hwell⟩, hentries⟩
    · exact .inr ⟨fault, .entry hd hwell hconnection hbefore hfault⟩

theorem faults_eq_nil_iff (henabled : s.enabled = true) : s.faults = [] ↔ s.WellFormed := by
  refine ⟨fun hnil => ?_, WellFormed.faults_eq_nil⟩
  obtain hwell | ⟨fault, hfault⟩ := s.wellFormed_or_firstFault
  · exact hwell
  · have hhead := hfault.head?_faults henabled
    rw [hnil] at hhead
    cases hhead

theorem head?_faults_eq_some_iff (henabled : s.enabled = true) :
    s.faults.head? = some fault ↔ s.FirstFault fault := by
  refine ⟨fun hhead => ?_, fun hfault => hfault.head?_faults henabled⟩
  obtain hwell | ⟨first, hfirst⟩ := s.wellFormed_or_firstFault
  · rw [hwell.faults_eq_nil] at hhead
    cases hhead
  · obtain rfl : first = fault := Option.some.inj ((hfirst.head?_faults henabled).symm.trans hhead)
    exact hfirst

theorem validate_eq_error_iff {e : Failure} :
    s.validate = .error e ↔ ∃ fault, s.faults.head? = some fault ∧ e = .config fault.message := by
  unfold validate
  cases s.faults <;> simp [eq_comm]

/-- Settings are accepted exactly when they are not enabled or are well formed, and what is reported
of others is the first rule that they break. -/
theorem validate_decides (s : RedisSettings) :
    (s.validate = .ok () ↔ s.enabled = false ∨ s.WellFormed) ∧
      ∀ e, s.validate = .error e ↔
        s.enabled = true ∧ ∃ fault, s.FirstFault fault ∧ e = .config fault.message := by
  rw [validate_eq_ok_iff]
  cases henabled : s.enabled with
  | false =>
    have hfaults : s.faults = [] := by simp [faults, henabled]
    simp [validate_eq_error_iff, hfaults]
  | true =>
    simp [validate_eq_error_iff, faults_eq_nil_iff henabled, head?_faults_eq_some_iff henabled]

end RedisSettings

end QuorumPool
