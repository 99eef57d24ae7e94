import QuorumPool.Proofs.WellFormed

namespace QuorumPool.Pool

variable {p q : Pool} {h k : Hand} {i j : Nat}

/-- How many shards have their flag set. -/
def flagged (p : Pool) : Nat := p.shards.countP Shard.available

theorem flagged_le_length (p : Pool) : p.flagged ≤ p.shards.length := List.countP_le_length

theorem flagged_eq_length_iff :
    p.flagged = p.shards.length ↔ ∀ i < p.shards.length, (p.shard i).available = true := by
  rw [flagged, List.countP_eq_length]
  constructor
  · intro hall i hi
    rw [shard_eq_getElem hi]
    exact hall _ (List.getElem_mem hi)
  · intro hall s hs
    obtain ⟨i, hi, rfl⟩ := List.mem_iff_getElem.mp hs
    rw [← shard_eq_getElem hi]
    exact hall i hi

theorem flagged_modifyShard (hi : i < p.shards.length) (f : Shard → Shard) :
    (p.modifyShard i f).flagged + (p.shard i).available.toNat =
      p.flagged + (f (p.shard i)).available.toNat := by
  obtain ⟨pre, s, post, hsplit, hlen, hmodify⟩ := List.exists_of_modify f hi
  have hs : p.shard i = s := by simp [shard, hsplit, ← hlen, List.getD_eq_getElem?_getD]
  rw [flagged, flagged, modifyShard, hmodify, hsplit, hs]
  simp only [List.countP_append, List.countP_cons]
  cases s.available <;> cases (f s).available <;> simp <;> omega

theorem flagged_modifyShard_of_available {f : Shard → Shard}
    (hf : ∀ s, (f s).available = s.available) : (p.modifyShard i f).flagged = p.flagged := by
  by_cases hi : i < p.shards.length
  · have hcount := flagged_modifyShard hi f
    rw [hf] at hcount
    omega
  · rw [modifyShard_of_length_le (Nat.le_of_not_lt hi)]

private theorem flagged_count {t : Tally → Tally} : (p.count i t).flagged = p.flagged :=
  flagged_modifyShard_of_available (f := fun s => s.count t) fun _ => rfl

private theorem flagged_eq_of_available (hlen : q.shards.length = p.shards.length)
    (havailable : ∀ i, (q.shard i).available = (p.shard i).available) : q.flagged = p.flagged := by
  have hmap : q.shards.map Shard.available = p.shards.map Shard.available := by
    refine List.ext_getElem (by simp [hlen]) fun i hi hi' => ?_
    rw [List.getElem_map, List.getElem_map]
    rw [List.length_map] at hi hi'
    rw [← shard_eq_getElem hi, ← shard_eq_getElem hi', havailable]
  have hcount : ∀ r : Pool, r.flagged = (r.shards.map Shard.available).countP id := fun r => by
    rw [List.countP_map]
    rfl
  rw [hcount, hcount, hmap]

/-- The counter agrees with the flags, and one demotion fewer would leave more available than the
quorum asks for. -/
structure Accounted (p : Pool) : Prop where
  flags : p.numAvailable = p.flagged
  floor : p.shards.length * p.config.quorum.numerator <
    (p.numAvailable + 1) * p.config.quorum.denominator

namespace Accounted

theorem congr (hp : p.Accounted) (hconfig : q.config = p.config)
    (hlen : q.shards.length = p.shards.length) (hnum : q.numAvailable = p.numAvailable)
    (hflags : q.flagged = p.flagged) : q.Accounted := by
  constructor
  · rw [hnum, hflags, hp.flags]
  · rw [hconfig, hlen, hnum]
    exact hp.floor

theorem promote (hp : p.Accounted) (hi : i < p.shards.length)
    (havailable : (p.shard i).available = false) :
    ({ p with numAvailable := p.numAvailable + 1 }.modifyShard i
      fun s => { s with available := true }).Accounted := by
  have hcount := flagged_modifyShard hi fun s => { s with available := true }
  rw [havailable] at hcount
  constructor
  · change p.numAvailable + 1 = (p.modifyShard i fun s => { s with available := true }).flagged
    rw [hp.flags]
    simpa using hcount.symm
  · rw [length_shards_modifyShard]
    refine Nat.lt_of_lt_of_le hp.floor (Nat.mul_le_mul_right _ ?_)
    exact Nat.le_succ _

theorem demote (hp : p.Accounted) (hi : i < p.shards.length)
    (havailable : (p.shard i).available = true)
    (hpermits : p.config.quorum.permitsDemotion p.numAvailable p.shards.length = true) :
    ({ p with numAvailable := p.numAvailable - 1 }.modifyShard i
      fun s => { s with available := false }).Accounted := by
  have hcount := flagged_modifyShard hi fun s => { s with available := false }
  simp only [havailable, Bool.toNat_true, Bool.toNat_false] at hcount
  have hflags := hp.flags
  simp only [Quorum.permitsDemotion, decide_eq_true_eq] at hpermits
  constructor
  · change p.numAvailable - 1 = (p.modifyShard i fun s => { s with available := false }).flagged
    omega
  · rw [length_shards_modifyShard]
    change _ < (p.numAvailable - 1 + 1) * _
    rwa [Nat.sub_add_cancel (by omega)]

theorem move (hmove : Move (p, h) (q, k)) (hp : p.Accounted) : q.Accounted := by
  have hlen : q.shards.length = p.shards.length := (Moves.single hmove).length_shards
  have hconfig : q.config = p.config := (Moves.single hmove).config_eq
  cases hmove with
  | quiet hquiet =>
    have hflagged : q.flagged = p.flagged := by rw [flagged, hquiet.shards, flagged]
    exact hp.congr hconfig hlen hquiet.numAvailable hflagged
  | score hf => exact hp.congr hconfig hlen rfl (flagged_modifyShard_of_available hf.available)
  | promote hi havailable => exact hp.promote hi havailable
  | demote hi havailable hpermits => exact hp.demote hi havailable hpermits
  | @lend _ i c _ =>
    exact hp.congr hconfig hlen rfl
      (flagged_modifyShard_of_available (p := p.modifyConn c _) (f := Shard.occupySlot)
        fun _ => rfl)
  | dial _ _ _ =>
    apply hp.congr hconfig hlen rfl
    rw [flagged_count, flagged_modifyShard_of_available (f := Shard.occupySlot) fun _ => rfl]
  | failDial _ =>
    apply hp.congr hconfig hlen rfl
    rw [flagged_modifyShard_of_available (f := Shard.releaseSlot) fun _ => rfl, flagged_count]
  | adopt | unlend => exact hp.congr hconfig hlen rfl rfl
  | _ => exact hp.congr hconfig hlen rfl (flagged_modifyShard_of_available fun _ => rfl)

end Accounted

theorem invariant_accounted : Invariant fun p _ _ => p.Accounted where
  perm _ hp := hp
  alike halike hp := hp.congr halike.config (by rw [halike.shards]) halike.numAvailable
    (by rw [flagged, halike.shards, flagged])
  move hmove hp := hp.move hmove
  take hp := hp
  park := by
    intro p h hs _ hp
    cases h with
    | closing c => exact hp.congr rfl rfl rfl rfl
    | _ => exact hp
  tick _ hp := hp.congr rfl rfl rfl rfl
  recount := by
    intro p q hs hrecounted hp
    apply hp.congr hrecounted.config hrecounted.length_shards hrecounted.numAvailable
    apply flagged_eq_of_available hrecounted.length_shards
    intro i
    obtain ⟨t, ht⟩ := hrecounted.shard i
    rw [ht, Shard.count]

theorem accounted_of_create {config : Config} {addresses : List String} {now : Duration}
    (hcreate : create config addresses now = .ok p) : p.Accounted := by
  obtain ⟨hconfig, _, rfl⟩ := eq_of_create hcreate
  constructor
  · simp only [note, flagged, List.countP_map]
    exact (List.countP_eq_length.mpr fun _ _ => rfl).symm
  · simp only [note, List.length_map]
    calc addresses.length * config.quorum.numerator
        ≤ addresses.length * config.quorum.denominator := Nat.mul_le_mul_left _ hconfig.quorum
      _ < (addresses.length + 1) * config.quorum.denominator :=
        Nat.mul_lt_mul_of_pos_right (Nat.lt_succ_self _) hconfig.denominator

theorem accounted_after {config : Config} {addresses : List String} {now : Duration}
    (hcreate : create config addresses now = .ok p) {as : List Action} (hruns : p.Runs as) :
    (p.after as).Accounted :=
  invariant_accounted.after hruns (.of_create hcreate) (accounted_of_create hcreate)

end QuorumPool.Pool
