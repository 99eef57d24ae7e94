import Mathlib.Data.List.DropRight
import QuorumPool.Settings.Basic

namespace QuorumPool

namespace Text

variable {cs before behind : List Char}

/-- Whether there is nothing but blanks in the text. -/
def Blank (cs : List Char) : Prop := ∀ c ∈ cs, isBlank c = true

/-- Whether the text neither begins nor ends with a blank. -/
def Trimmed (cs : List Char) : Prop :=
  (∀ c ∈ cs.head?, isBlank c = false) ∧ ∀ c ∈ cs.getLast?, isBlank c = false

theorem splitOn_eq (separator : Char) (cs : List Char) :
    splitOn separator cs = cs.splitOn separator := by
  induction cs with
  | nil => rfl
  | cons c rest ih =>
    rw [List.splitOn, List.splitOnP_cons_eq_if_modifyHead, ← List.splitOn, ← ih]
    by_cases hc : c = separator
    · simp [splitOn, hc]
    · simp only [splitOn, if_neg hc, beq_eq_false_iff_ne.mpr hc, Bool.false_eq_true, if_false]
      cases hrest : splitOn separator rest with
      | nil => exact absurd (ih.symm.trans hrest) (List.splitOn_ne_nil separator rest)
      | cons piece pieces => rfl

private theorem not_mem_of_mem_splitOn {separator : Char} {piece : List Char}
    (hpiece : piece ∈ cs.splitOn separator) : separator ∉ piece := by
  rw [← splitOn_eq] at hpiece
  induction cs generalizing piece with
  | nil => simp_all [splitOn]
  | cons c rest ih =>
    unfold splitOn at hpiece
    split at hpiece
    · obtain rfl | hpiece := List.mem_cons.mp hpiece
      · exact List.not_mem_nil
      · exact ih hpiece
    · rename_i hc
      split at hpiece
      · simpa [List.mem_singleton.mp hpiece] using Ne.symm hc
      · rename_i heq
        obtain rfl | hpiece := List.mem_cons.mp hpiece
        · have hfirst := ih (heq ▸ List.mem_cons_self)
          simp [Ne.symm hc, hfirst]
        · exact ih (heq ▸ List.mem_cons_of_mem _ hpiece)

private theorem dropWhile_isBlank (hcs : ∀ c ∈ cs.head?, isBlank c = false) :
    cs.dropWhile isBlank = cs := by
  cases cs with
  | nil => rfl
  | cons c rest => exact List.dropWhile_cons_of_neg (by simp [hcs c rfl])

theorem trim_eq_rdropWhile (cs : List Char) :
    trim cs = (cs.dropWhile isBlank).rdropWhile isBlank := rfl

theorem trim_eq_nil_iff : trim cs = [] ↔ Blank cs := by
  rw [trim_eq_rdropWhile, List.rdropWhile_eq_nil_iff, Blank]
  constructor
  · intro hblank c hc
    rw [← List.takeWhile_append_dropWhile (p := isBlank) (l := cs)] at hc
    exact (List.mem_append.mp hc).elim List.mem_takeWhile_imp (hblank c)
  · exact fun hblank c hc => hblank c ((List.dropWhile_sublist isBlank).mem hc)

/-- Blanks around a text are what trimming takes away. -/
theorem trim_pad (hbefore : Blank before) (hbehind : Blank behind) (hcs : Trimmed cs) :
    trim (before ++ cs ++ behind) = cs := by
  obtain rfl | hne := eq_or_ne cs []
  · rw [trim_eq_nil_iff]
    exact fun c hc => (List.mem_append.mp (by simpa using hc)).elim (hbefore c) (hbehind c)
  · have hhead : ∀ c ∈ (cs ++ behind).head?, isBlank c = false := by
      rw [List.head?_append_of_ne_nil _ hne]
      exact hcs.1
    have hlast : ∀ c ∈ cs.reverse.head?, isBlank c = false := by
      rw [List.head?_reverse]
      exact hcs.2
    have hend : ∀ c ∈ behind.reverse, isBlank c = true := fun c hc =>
      hbehind c (List.mem_reverse.mp hc)
    rw [trim, List.append_assoc, List.dropWhile_append_of_pos hbefore, dropWhile_isBlank hhead,
      List.reverse_append, List.dropWhile_append_of_pos hend, dropWhile_isBlank hlast,
      List.reverse_reverse]

theorem exists_pad (cs : List Char) :
    ∃ before behind, Blank before ∧ Blank behind ∧ cs = before ++ trim cs ++ behind := by
  refine ⟨cs.takeWhile isBlank, (cs.dropWhile isBlank).rtakeWhile isBlank,
    fun _ => List.mem_takeWhile_imp, fun _ => List.mem_rtakeWhile_imp, ?_⟩
  rw [trim_eq_rdropWhile, List.append_assoc, List.rdropWhile_append_rtakeWhile,
    List.takeWhile_append_dropWhile]

theorem trimmed_trim (cs : List Char) : Trimmed (trim cs) := by
  have hlast : ∀ c ∈ (trim cs).getLast?, isBlank c = false := by
    intro c hc
    rw [trim, List.getLast?_reverse] at hc
    have hnot := List.head?_dropWhile_not isBlank (cs.dropWhile isBlank).reverse
    rwa [hc] at hnot
  refine ⟨fun c hc => ?_, hlast⟩
  -- What is left begins as it did before its end was trimmed.
  obtain ⟨behind, hprefix⟩ : trim cs <+: cs.dropWhile isBlank := List.rdropWhile_prefix isBlank _
  have hnot := List.head?_dropWhile_not isBlank cs
  rwa [← hprefix, List.head?_append, hc, Option.some_or] at hnot

end Text

namespace Settings

open Text

/-- Whether a line can have the text for an address: it is not empty, no separator is in it, and it
has no blank on either end. -/
structure IsAddress (a : String) : Prop where
  ne : a ≠ ""
  undivided : ';' ∉ a.toList
  trimmed : Trimmed a.toList

/-- The segments are written of the addresses, in their order: each address is a segment with any
blanks around it, and any blank segments stand between. -/
inductive Segments : List (List Char) → List String → Prop
  | nil : Segments [] []
  | blank {pad segments addresses} : Blank pad → Segments segments addresses →
      Segments (pad :: segments) addresses
  | address {before a behind segments addresses} : Blank before → Blank behind →
      Segments segments addresses →
      Segments ((before ++ a.toList ++ behind) :: segments) (a :: addresses)

/-- The line is written of the addresses, with separators between its segments. -/
def Writes (line : String) (addresses : List String) : Prop :=
  (∀ a ∈ addresses, IsAddress a) ∧
    ∃ segments, line.toList = [';'].intercalate segments ∧ Segments segments addresses

/-- The addresses that segments have, in order. -/
def entries (segments : List (List Char)) : List String :=
  ((segments.map trim).filter (!·.isEmpty)).map String.ofList

variable {line : String} {segments : List (List Char)} {addresses : List String} {cs : List Char}

theorem addressesOf_eq_entries (line : String) :
    addressesOf line = entries (line.toList.splitOn ';') := by
  rw [← splitOn_eq]
  rfl

theorem entries_cons_of_blank (hcs : Blank cs) : entries (cs :: segments) = entries segments := by
  have hnil : trim cs = [] := trim_eq_nil_iff.mpr hcs
  simp [entries, hnil]

theorem entries_cons_of_not_blank (hcs : ¬Blank cs) :
    entries (cs :: segments) = String.ofList (trim cs) :: entries segments := by
  have hne : trim cs ≠ [] := mt trim_eq_nil_iff.mp hcs
  simp [entries, hne]

/-- Segments are written of the addresses that they have. -/
theorem segments_entries (segments : List (List Char)) : Segments segments (entries segments) := by
  induction segments with
  | nil => exact .nil
  | cons cs rest ih =>
    by_cases hcs : Blank cs
    · rw [entries_cons_of_blank hcs]
      exact .blank hcs ih
    · rw [entries_cons_of_not_blank hcs]
      obtain ⟨before, behind, hbefore, hbehind, heq⟩ := exists_pad cs
      have hsegment := Segments.address (a := String.ofList (trim cs)) hbefore hbehind ih
      rwa [String.toList_ofList, ← heq] at hsegment

private theorem isAddress_of_mem_entries (hsegments : ∀ cs ∈ segments, ';' ∉ cs) :
    ∀ a ∈ entries segments, IsAddress a := by
  intro a ha
  simp only [entries, List.mem_map, List.mem_filter] at ha
  obtain ⟨_, ⟨⟨cs, hcs, rfl⟩, hne⟩, rfl⟩ := ha
  obtain ⟨before, behind, -, -, heq⟩ := exists_pad cs
  refine ⟨by simpa using hne, ?_, ?_⟩ <;> rw [String.toList_ofList]
  · intro hmem
    refine hsegments cs hcs ?_
    rw [heq]
    simp [hmem]
  · exact trimmed_trim cs

/-- No segment of a written line holds a separator. -/
theorem Segments.undivided (hsegments : Segments segments addresses)
    (haddresses : ∀ a ∈ addresses, IsAddress a) : ∀ cs ∈ segments, ';' ∉ cs := by
  have hblank : ∀ {cs}, Blank cs → ';' ∉ cs := fun hcs hmem => absurd (hcs _ hmem) (by decide)
  induction hsegments with
  | nil => simp
  | blank hpad _ ih => exact List.forall_mem_cons.mpr ⟨hblank hpad, ih haddresses⟩
  | address hbefore hbehind _ ih =>
    obtain ⟨ha, hrest⟩ := List.forall_mem_cons.mp haddresses
    refine List.forall_mem_cons.mpr ⟨?_, ih hrest⟩
    simp [hblank hbefore, hblank hbehind, ha.undivided]

/-- Segments have no addresses but those that they are written of. -/
theorem Segments.entries_eq (hsegments : Segments segments addresses)
    (haddresses : ∀ a ∈ addresses, IsAddress a) : entries segments = addresses := by
  induction hsegments with
  | nil => rfl
  | blank hpad _ ih =>
    rw [entries_cons_of_blank hpad]
    exact ih haddresses
  | @address before a behind _ _ hbefore hbehind _ ih =>
    obtain ⟨ha, hrest⟩ := List.forall_mem_cons.mp haddresses
    have htrim : trim (before ++ a.toList ++ behind) = a.toList := trim_pad hbefore hbehind ha.trimmed
    have hnot : ¬Blank (before ++ a.toList ++ behind) := by
      rw [← trim_eq_nil_iff, htrim]
      exact mt String.toList_eq_nil_iff.mp ha.ne
    rw [entries_cons_of_not_blank hnot, htrim, String.ofList_toList, ih hrest]

theorem Segments.of_isAddress (addresses : List String) :
    Segments (addresses.map String.toList) addresses := by
  induction addresses with
  | nil => exact .nil
  | cons a rest ih =>
    have hnone : Blank [] := by simp [Blank]
    have hsegment : Segments (([] ++ a.toList ++ []) :: rest.map String.toList) (a :: rest) :=
      .address hnone hnone ih
    simpa using hsegment

theorem addressesOf_eq_nil_iff : addressesOf line = [] ↔ ∀ cs ∈ line.toList.splitOn ';', Blank cs := by
  rw [addressesOf_eq_entries]
  simp [entries, trim_eq_nil_iff]

theorem writes_addressesOf (line : String) : Writes line (addressesOf line) := by
  rw [addressesOf_eq_entries]
  refine ⟨isAddress_of_mem_entries fun cs hcs => ?_, line.toList.splitOn ';',
    (List.intercalate_splitOn ';').symm, segments_entries _⟩
  exact not_mem_of_mem_splitOn hcs

theorem Writes.addressesOf_eq (hwrites : Writes line addresses) :
    addressesOf line = addresses := by
  obtain ⟨haddresses, segments, hline, hsegments⟩ := hwrites
  rw [addressesOf_eq_entries, hline]
  obtain rfl | hne := eq_or_ne segments []
  -- A line without any segment is read as one that has an empty one.
  · cases hsegments
    rfl
  · rw [List.splitOn_intercalate ';' (hsegments.undivided haddresses) hne]
    exact hsegments.entries_eq haddresses

theorem Writes.intercalate (haddresses : ∀ a ∈ addresses, IsAddress a) :
    Writes (";".intercalate addresses) addresses :=
  ⟨haddresses, addresses.map String.toList, String.toList_intercalate,
    .of_isAddress addresses⟩

end Settings

/-- The settings of a pool have the addresses that the line in them is written of, and no others. All
of these can stand on a line, and written on one with nothing but separators between them they are
read the same. -/
theorem PoolSettings.addresses_round_trip (s : PoolSettings) :
    (∀ addresses, s.addresses = addresses ↔ Settings.Writes s.dsn addresses) ∧
      (∀ a ∈ s.addresses, Settings.IsAddress a) ∧
      { s with dsn := ";".intercalate s.addresses }.addresses = s.addresses := by
  have hwrites : Settings.Writes s.dsn s.addresses := Settings.writes_addressesOf s.dsn
  refine ⟨fun addresses => ⟨?_, Settings.Writes.addressesOf_eq⟩, hwrites.1,
    (Settings.Writes.intercalate hwrites.1).addressesOf_eq⟩
  rintro rfl
  exact hwrites

example : Settings.addressesOf " a:1; b:1;;\tc:1 ;" = ["a:1", "b:1", "c:1"] := by decide

end QuorumPool
