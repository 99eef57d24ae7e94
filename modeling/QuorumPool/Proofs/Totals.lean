import QuorumPool.Proofs.Changes
import QuorumPool.Proofs.Slots

namespace QuorumPool

/-- How many connections are in hand that have left the idle queue of the shard, or have come back
to it and given their slot back. -/
def Hand.holds (i : Nat) : Hand → Nat
  | popped j _ | returned j _ => if j = i then 1 else 0
  | free | slot _ | unlent .. | closing _ => 0

/-- Whether the task validates a connection of shard `i`, in a pool of `n` shards. -/
def Task.validatesAt (n i : Nat) : Task → Bool
  | get ⟨start, attempt, .validating _⟩ => (start + attempt) % n = i
  | _ => false

/-- What has become of the dials that the shard counts: they have failed, their connections were
closed, are lent or idle, or they are still under way. -/
def Shard.settled (s : Shard) : Nat :=
  s.tally.dialErrors + s.tally.closes + s.active + s.idle.length

namespace Pool

/-- The snapshots of shard `i` that are taken with the action. -/
def snapshots (i : Nat) (p : Pool) : Action → List ShardStats
  | .takeStats => p.takeStats.2[i]?.toList
  | .takeShardStats j => if j = i then (p.takeShardStats j).2.toList else []
  | _ => []

/-- What all snapshots of shard `i` in a run say of a counter, and what it says now. -/
def total (p : Pool) (as : List Action) (i : Nat) (k : Counter) : Nat :=
  ((along (snapshots i) p as).map (·.tally.of k)).sum + ((p.after as).shard i).tally.of k

/-- How many connections of shard `i` are being validated. -/
def validating (p : Pool) (i : Nat) : Nat := p.tasks.countP (·.2.validatesAt p.shards.length i)

/-- The dials that shard `i` counts, beside `d` earlier ones, are all accounted for, when `e` of
those have failed or have had their connections closed. -/
def Reckoned (d e i : Nat) (p : Pool) (h : Hand) (hs : List Hand) : Prop :=
  i < p.shards.length → d + (p.shard i).tally.dials =
    e + (p.shard i).settled + h.holds i + (hs.map (·.holds i)).sum

variable {p q : Pool} {h k : Hand} {hs : List Hand} {d e i j : Nat} {f : Shard → Shard}

namespace Reckoned

/-- What settles as many dials as it makes, with what it takes in hand and puts down, keeps them all
accounted for. -/
theorem shift (hp : Reckoned d e i p h hs) (hlen : q.shards.length = p.shards.length)
    (hbalance : i < p.shards.length →
      (q.shard i).tally.dials + ((p.shard i).settled + h.holds i) =
        (p.shard i).tally.dials + ((q.shard i).settled + k.holds i)) : Reckoned d e i q k hs := by
  intro hi
  rw [hlen] at hi
  have hreckoned := hp hi
  have hbalanced := hbalance hi
  omega

/-- A change of one shard. -/
theorem modifyShard (hp : Reckoned d e i p h hs)
    (hself : ∀ s, p.shard j = s → (f s).tally.dials + (s.settled + h.holds j) =
      s.tally.dials + ((f s).settled + k.holds j))
    (hothers : j ≠ i → k.holds i = h.holds i) : Reckoned d e i (p.modifyShard j f) k hs := by
  refine hp.shift length_shards_modifyShard fun hi => ?_
  rw [shard_modifyShard_of_lt hi]
  split
  · rename_i hji
    subst hji
    exact hself _ rfl
  · rename_i hji
    rw [hothers hji]

theorem congr (hp : Reckoned d e i p h hs) (hshards : q.shards = p.shards)
    (hholds : k.holds i = h.holds i) : Reckoned d e i q k hs := by
  refine hp.shift (by rw [hshards]) fun _ => ?_
  rw [shard, hshards, ← shard, hholds]

theorem move (hmove : Move (p, h) (q, k)) (hslotted : p.Slotted h hs)
    (hp : Reckoned d e i p h hs) : Reckoned d e i q k hs := by
  cases hmove with
  | quiet hquiet => exact hp.congr hquiet.shards rfl
  | score hf =>
    refine hp.modifyShard (fun s _ => ?_) fun _ => rfl
    simp only [Shard.settled, hf.dials, hf.dialErrors, hf.closes, hf.active, hf.idle]
  | pop hidle =>
    refine hp.modifyShard (fun s hs => ?_) fun hji => ?_
    · rw [hs] at hidle
      simp only [Shard.settled, hidle, List.tail_cons, List.length_cons, Hand.holds, if_true]
      omega
    · simp [Hand.holds, hji]
  | @lend _ j c _ =>
    have hconns : Reckoned d e i (p.modifyConn c fun conn => { conn with borrowed := true })
        (.popped j c) hs := hp.congr rfl rfl
    refine hconns.modifyShard (fun s _ => ?_) fun hji => ?_
    · simp only [Shard.settled, Shard.occupySlot, Hand.holds, if_true]
      omega
    · simp [Hand.holds, hji]
  | discard | refuse =>
    refine hp.modifyShard (fun s _ => ?_) fun hji => ?_
    · simp only [Shard.settled, Shard.count, Tally.countClose, Hand.holds, if_true]
      omega
    · simp [Hand.holds, hji]
  | @dial _ j _ _ _ =>
    refine hp.shift (by simp) fun hi => ?_
    rw [count, shard_modifyShard_of_lt (by simpa using hi), shard_modifyShard_of_lt hi]
    split
    · simp only [Shard.settled, Shard.count, Shard.occupySlot, Tally.countDial, Hand.holds]
      omega
    · rfl
  | adopt => exact hp.congr rfl rfl
  | @failDial _ j hj =>
    have hpos := hslotted.active_pos hj (if_pos rfl)
    refine hp.shift (by simp) fun hi => ?_
    rw [shard_modifyShard_of_lt (by simpa using hi), count, shard_modifyShard_of_lt hi]
    split
    · rename_i hji
      subst hji
      simp only [Shard.settled, Shard.count, Shard.releaseSlot, Tally.countDialError, Hand.holds]
      omega
    · rfl
  | unlend => exact hp.congr rfl rfl
  | release hj =>
    have hpos := hslotted.active_pos hj (if_pos rfl)
    refine hp.modifyShard (fun s hs => ?_) fun hji => ?_
    · rw [hs] at hpos
      simp only [Shard.settled, Shard.releaseSlot, Hand.holds, if_true]
      omega
    · simp [Hand.holds, hji]
  | enqueue =>
    refine hp.modifyShard (fun s _ => ?_) fun hji => ?_
    · simp only [Shard.settled, List.length_append, List.length_singleton, Hand.holds, if_true]
      omega
    · simp [Hand.holds, hji]
  | promote | demote =>
    have hnumber (numAvailable : Nat) : Reckoned d e i { p with numAvailable } .free hs :=
      hp.congr rfl rfl
    exact (hnumber _).modifyShard (fun _ _ => rfl) fun _ => rfl
  | shut => exact hp.modifyShard (fun _ _ => rfl) fun _ => rfl

end Reckoned

theorem steady_reckoned (d e i : Nat) :
    Steady fun p h hs => (p.Conserved h hs ∧ p.Slotted h hs) ∧ Reckoned d e i p h hs where
  perm := by
    rintro p h hs hs' hperm ⟨hslotted, hp⟩
    refine ⟨invariant_slotted.perm hperm hslotted, fun hi => ?_⟩
    rw [hp hi, (hperm.map (·.holds i)).sum_nat]
  alike := by
    rintro p q h hs halike ⟨hslotted, hp⟩
    exact ⟨invariant_slotted.alike halike hslotted, hp.congr halike.shards rfl⟩
  move := by
    rintro p q h k hs hmove ⟨hslotted, hp⟩
    exact ⟨invariant_slotted.move hmove hslotted, hp.move hmove hslotted.2⟩
  take := by
    rintro p h hs ⟨hslotted, hp⟩
    refine ⟨invariant_slotted.take hslotted, fun hi => ?_⟩
    rw [hp hi, List.map_cons, List.sum_cons]
    simp only [Hand.holds]
    omega
  park := by
    rintro p h hs hparks ⟨hslotted, hp⟩
    refine ⟨invariant_slotted.park hparks hslotted, fun hi => ?_⟩
    have hshards : (p.handOver h).shards = p.shards := by cases h <;> rfl
    have hparked : h.parked.holds i = h.holds i := by cases h <;> rfl
    rw [hshards] at hi
    rw [shard, hshards, ← shard, hp hi, List.map_cons, List.sum_cons, hparked]
    simp only [Hand.holds]
    omega

/-- The waiting tasks hold the connections that they validate. -/
theorem sum_holds_held (p : Pool) (i : Nat) : (p.held.map (·.holds i)).sum = p.validating i := by
  unfold held validating
  induction p.tasks with
  | nil => rfl
  | cons x tasks ih =>
    rw [List.map_cons, List.map_cons, List.sum_cons, ih, List.countP_cons, Nat.add_comm]
    congr 1
    obtain ⟨id, t⟩ := x
    cases t with
    | get g =>
      obtain ⟨start, attempt, borrowing⟩ := g
      cases borrowing <;>
        simp [Task.hand, Getting.hand, Borrowing.hand, Hand.parked, Hand.holds, Task.validatesAt]
    | verdict v => cases v <;> rfl
    | shutdown s => cases s <;> rfl
    | _ => rfl

section Snapshots

variable {a : Action} {as : List Action} {l : Counter}

theorem shard_takeStats (hi : i < p.shards.length) :
    p.takeStats.1.shard i = (p.shard i).count fun _ => {} := by
  simp [takeStats, shard, List.getD_eq_getElem?_getD, hi]

/-- A snapshot takes over what the shard has counted. -/
theorem snapshot_add_tally (hi : i < p.shards.length)
    (ha : a = .takeStats ∨ ∃ j, a = .takeShardStats j) (l : Counter) :
    ((snapshots i p a).map (·.tally.of l)).sum + ((p.act a).shard i).tally.of l =
      (p.shard i).tally.of l := by
  have hnone : ({} : Tally).of l = 0 := by cases l <;> rfl
  obtain rfl | ⟨j, rfl⟩ := ha
  · rw [act, shard_takeStats hi]
    simp [snapshots, takeStats, hi, Shard.stats, Shard.count, hnone, shard_eq_getElem hi]
  · rw [act, takeShardStats, count, shard_modifyShard_of_lt hi]
    split
    · rename_i hji
      subst hji
      simp [snapshots, takeShardStats, hi, Shard.stats, Shard.count, hnone, shard_eq_getElem hi]
    · rename_i hji
      rw [snapshots, if_neg hji]
      exact Nat.zero_add _

/-- Taking a snapshot leaves the dials accounted for, now that it tells of some of them. -/
theorem Reckoned.read (hp : Reckoned d e i p .free p.held)
    (ha : a = .takeStats ∨ ∃ j, a = .takeShardStats j) :
    Reckoned (d + ((snapshots i p a).map (·.tally.of .dials)).sum)
      (e + ((snapshots i p a).map (·.tally.of .dialErrors)).sum +
        ((snapshots i p a).map (·.tally.of .closes)).sum) i (p.act a) .free (p.act a).held := by
  have hrecounted : p.Recounted (p.act a) := by
    obtain rfl | ⟨j, rfl⟩ := ha
    · exact recounted_takeStats p
    · exact recounted_takeShardStats p j
  have htasks : (p.act a).tasks = p.tasks := by
    obtain rfl | ⟨j, rfl⟩ := ha <;> rfl
  intro hi
  rw [hrecounted.length_shards] at hi
  have hreckoned := hp hi
  have hdials := snapshot_add_tally hi ha .dials
  have herrors := snapshot_add_tally hi ha .dialErrors
  have hcloses := snapshot_add_tally hi ha .closes
  obtain ⟨t, ht⟩ := hrecounted.shard i
  rw [held_eq_of_tasks_eq htasks hrecounted.length_shards]
  simp only [ht, Shard.settled, Shard.count, Tally.of] at hreckoned hdials herrors hcloses ⊢
  omega

theorem Reckoned.act (hwf : p.WellFormed) (hslotted : p.Conserved .free p.held ∧
      p.Slotted .free p.held) (hp : Reckoned d e i p .free p.held) (a : Action) :
    Reckoned (d + ((snapshots i p a).map (·.tally.of .dials)).sum)
      (e + ((snapshots i p a).map (·.tally.of .dialErrors)).sum +
        ((snapshots i p a).map (·.tally.of .closes)).sum) i (p.act a) .free (p.act a).held := by
  have hwork (q : Pool) (hq : Work p q) : Reckoned d e i q .free q.held :=
    ((steady_reckoned d e i).work hq ⟨hslotted, hp⟩).2
  cases a with
  | start request => exact hwork _ (work_start hwf request)
  | resume id reply => exact hwork _ (work_resume hwf id reply)
  | turn => exact hwork _ (work_turn hwf)
  | resumeChecker reply => exact hwork _ (work_resumeChecker hwf reply)
  | setTime | abandon => exact hp
  | takeStats => exact hp.read (.inl rfl)
  | takeShardStats j => exact hp.read (.inr ⟨j, rfl⟩)

theorem Reckoned.after (hruns : p.Runs as) (hwf : p.WellFormed)
    (hslotted : p.Conserved .free p.held ∧ p.Slotted .free p.held)
    (hp : Reckoned d e i p .free p.held) :
    Reckoned (d + ((along (snapshots i) p as).map (·.tally.of .dials)).sum)
      (e + ((along (snapshots i) p as).map (·.tally.of .dialErrors)).sum +
        ((along (snapshots i) p as).map (·.tally.of .closes)).sum) i
      (p.after as) .free (p.after as).held := by
  induction as generalizing p d e with
  | nil => exact hp
  | cons a as ih =>
    obtain ⟨hadmits, hruns⟩ := hruns
    have hon := ih hruns (hwf.act a) (invariant_slotted.effect (effect_act hwf hadmits) hslotted)
      (hp.act hwf hslotted a)
    intro hi
    have hbalance := hon hi
    simp only [along, List.map_append, List.sum_append, Pool.after] at hbalance ⊢
    omega

end Snapshots

/-- The dials of a shard that have not failed, and whose connections were not closed, are those of
its lent connections, with the dials under way, of its idle ones and of those under validation. -/
theorem total_dials_eq {config : Config} {addresses : List String} {now : Duration}
    (hcreate : create config addresses now = .ok p) {as : List Action} (hruns : p.Runs as)
    (hi : i < addresses.length) :
    p.total as i .dials = p.total as i .dialErrors + p.total as i .closes +
      ((p.after as).shard i).active + ((p.after as).shard i).idle.length +
      (p.after as).validating i := by
  have hwf := WellFormed.of_create hcreate
  have hfresh : Reckoned 0 0 i p .free p.held := by
    intro _
    have hheld : p.held = [] := by
      obtain ⟨_, _, rfl⟩ := eq_of_create hcreate
      rfl
    rw [shard_of_create hcreate hi, hheld]
    rfl
  have hreckoned := hfresh.after hruns hwf ⟨conserved_of_create hcreate, slotted_of_create hcreate⟩
  have hbalance := hreckoned (by rwa [(fixed_after hruns hwf).2, length_shards_of_create hcreate])
  rw [sum_holds_held] at hbalance
  simp only [Shard.settled, Hand.holds] at hbalance
  simp only [total, Tally.of] at hbalance ⊢
  omega

end Pool

end QuorumPool
