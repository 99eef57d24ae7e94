import QuorumPool.Pool.Basic

namespace QuorumPool

namespace Shard

theorem idle_occupySlot (s : Shard) : s.occupySlot.idle = s.idle := rfl

theorem idle_releaseSlot (s : Shard) : s.releaseSlot.idle = s.idle := rfl

theorem idle_count (g : Tally → Tally) (s : Shard) : (s.count g).idle = s.idle := rfl

end Shard

namespace Pool

variable {p : Pool} {i j : Nat} {f : Shard → Shard}

@[simp]
theorem length_shards_modifyShard : (p.modifyShard i f).shards.length = p.shards.length := by
  simp [modifyShard]

@[simp]
theorem length_shards_count {g : Tally → Tally} :
    (p.count i g).shards.length = p.shards.length := length_shards_modifyShard

@[simp]
theorem length_shards_dropIdle : (p.dropIdle i).shards.length = p.shards.length :=
  length_shards_modifyShard

@[simp]
theorem length_shards_lend {c : ConnId} : (p.lend i c).shards.length = p.shards.length :=
  length_shards_modifyShard

theorem shard_eq_getElem (hi : i < p.shards.length) : p.shard i = p.shards[i] := by
  simp [shard, List.getD_eq_getElem?_getD, hi]

theorem shard_of_length_le (hi : p.shards.length ≤ i) : p.shard i = default := by
  simp [shard, List.getD_eq_getElem?_getD, hi]

theorem shard_modifyShard_self (hi : i < p.shards.length) :
    (p.modifyShard i f).shard i = f (p.shard i) := by
  simp [shard, modifyShard, List.getD_eq_getElem?_getD, hi]

theorem shard_modifyShard_of_ne (hij : i ≠ j) : (p.modifyShard i f).shard j = p.shard j := by
  simp [shard, modifyShard, List.getD_eq_getElem?_getD, hij]

theorem shard_modifyShard (hi : i < p.shards.length) (j : Nat) :
    (p.modifyShard i f).shard j = if i = j then f (p.shard j) else p.shard j := by
  by_cases hij : i = j
  · rw [if_pos hij, ← hij, shard_modifyShard_self hi]
  · rw [if_neg hij, shard_modifyShard_of_ne hij]

theorem shard_modifyShard_of_lt (hi : i < p.shards.length) :
    (p.modifyShard j f).shard i = if j = i then f (p.shard i) else p.shard i := by
  split
  · rename_i hji
    subst hji
    exact shard_modifyShard_self hi
  · exact shard_modifyShard_of_ne ‹_›

theorem modifyShard_of_length_le (hi : p.shards.length ≤ i) : p.modifyShard i f = p := by
  simp [modifyShard, List.modify_eq_self hi]

/-- A change of a shard that is taken back. -/
theorem modifyShard_modifyShard {g : Shard → Shard} (hi : i < p.shards.length)
    (hself : g (f (p.shard i)) = p.shard i) : (p.modifyShard i f).modifyShard i g = p := by
  rw [shard_eq_getElem hi] at hself
  have hshards : (p.shards.modify i f).modify i g = p.shards := by
    rw [List.modify_modify_eq]
    refine List.ext_getElem (by simp) fun j hj _ => ?_
    rw [List.getElem_modify]
    split
    · rename_i hij
      subst hij
      exact hself
    · rfl
  simp only [modifyShard, hshards]

/-- A change of shards that leaves some aspect of every shard alone leaves it alone everywhere. -/
theorem aspect_modifyShard {α : Type} {g : Shard → α} (hg : ∀ s, g (f s) = g s) (j : Nat) :
    g ((p.modifyShard i f).shard j) = g (p.shard j) := by
  by_cases hi : i < p.shards.length
  · rw [shard_modifyShard hi]
    split
    · exact hg _
    · rfl
  · rw [modifyShard_of_length_le (Nat.le_of_not_lt hi)]

theorem shards_offerSuspect (i : Nat) : (p.offerSuspect i).shards = p.shards := by
  unfold offerSuspect
  split
  · rfl
  split <;> rfl

/-- An outcome is fed into the failure count of its shard, and may make the shard suspect. -/
theorem exists_recordOutcome_eq (p : Pool) (i : Nat) (failed : Bool) :
    ∃ count : Nat → Nat,
      p.recordOutcome i failed = (p.modifyShard i fun s => { s with fails := count s.fails }) ∨
      p.recordOutcome i failed =
        (p.modifyShard i fun s => { s with fails := count s.fails }).offerSuspect i := by
  unfold recordOutcome
  cases failed with
  | false => exact ⟨fun _ => 0, .inl rfl⟩
  | true =>
    refine ⟨(· + 1), ?_⟩
    simp only [if_true]
    split
    · exact .inr rfl
    · exact .inl rfl

theorem rotation_offerSuspect (p : Pool) (i : Nat) : (p.offerSuspect i).rotation = p.rotation := by
  unfold offerSuspect
  split
  · rfl
  split <;> rfl

theorem rotation_recordOutcome (p : Pool) (i : Nat) (failed : Bool) :
    (p.recordOutcome i failed).rotation = p.rotation := by
  obtain ⟨count, heq | heq⟩ := exists_recordOutcome_eq p i failed
  · rw [heq]
    rfl
  · rw [heq]
    exact rotation_offerSuspect _ i

theorem aspect_recordOutcome {α : Type} {g : Shard → α}
    (hg : ∀ s fails, g { s with fails } = g s) (i : Nat) (failed : Bool) (j : Nat) :
    g ((p.recordOutcome i failed).shard j) = g (p.shard j) := by
  obtain ⟨count, heq | heq⟩ := exists_recordOutcome_eq p i failed
  · rw [heq]
    exact aspect_modifyShard (fun s => hg s _) j
  · rw [heq, shard, shards_offerSuspect, ← shard]
    exact aspect_modifyShard (fun s => hg s _) j

theorem idle_modifyShard (hf : ∀ s, (f s).idle = s.idle) (j : Nat) :
    ((p.modifyShard i f).shard j).idle = (p.shard j).idle :=
  aspect_modifyShard hf j

theorem active_modifyShard (hf : ∀ s, (f s).active = s.active) (j : Nat) :
    ((p.modifyShard i f).shard j).active = (p.shard j).active :=
  aspect_modifyShard hf j

theorem idle_dropIdle (i j : Nat) :
    ((p.dropIdle i).shard j).idle = if i = j then (p.shard j).idle.tail else (p.shard j).idle := by
  by_cases hi : i < p.shards.length
  · rw [dropIdle, shard_modifyShard hi]
    split <;> rfl
  · rw [dropIdle, modifyShard_of_length_le (Nat.le_of_not_lt hi)]
    split
    · rename_i hij
      subst hij
      rw [shard_of_length_le (Nat.le_of_not_lt hi)]
      rfl
    · rfl

theorem idle_dial {t : Tally → Tally} (j : Nat) :
    (((p.modifyShard i Shard.occupySlot).count i t).shard j).idle = (p.shard j).idle := by
  rw [count, idle_modifyShard (Shard.idle_count t), idle_modifyShard Shard.idle_occupySlot]

theorem idle_failDial {t : Tally → Tally} (j : Nat) :
    (((p.count i t).modifyShard i Shard.releaseSlot).shard j).idle = (p.shard j).idle := by
  rw [idle_modifyShard Shard.idle_releaseSlot, count, idle_modifyShard (Shard.idle_count t)]

theorem idle_enqueue {c : ConnId} (hi : i < p.shards.length) (j : Nat) :
    ((p.modifyShard i fun s => { s with idle := s.idle ++ [c] }).shard j).idle =
      if i = j then (p.shard j).idle ++ [c] else (p.shard j).idle := by
  rw [shard_modifyShard hi]
  split <;> rfl

theorem getElem?_modifyConn {g : Conn → Conn} (c d : ConnId) :
    (p.modifyConn c g).conns[d]? =
      (p.conns[d]?).map fun conn => if c = d then g conn else conn := by
  simp [modifyConn, List.getElem?_modify]

/-- A change of connections that leaves their shards alone keeps the shards in use. -/
theorem shard_mem_modifyConn {g : Conn → Conn} (hg : ∀ conn, (g conn).shard = conn.shard)
    {c : ConnId} {conn : Conn} (hconn : conn ∈ (p.modifyConn c g).conns) :
    ∃ old ∈ p.conns, old.shard = conn.shard := by
  obtain ⟨d, hd⟩ := List.mem_iff_getElem?.mp hconn
  rw [getElem?_modifyConn, Option.map_eq_some_iff] at hd
  obtain ⟨old, hold, rfl⟩ := hd
  refine ⟨old, List.mem_of_getElem? hold, ?_⟩
  split
  · exact (hg old).symm
  · rfl

end Pool

end QuorumPool
