import QuorumPool.Proofs.Conservation
import QuorumPool.Proofs.Tasks

namespace QuorumPool

/-- How many slots of the shard are in hand. -/
def Hand.slots (i : Nat) : Hand → Nat
  | slot j | unlent j _ => if j = i then 1 else 0
  | free | popped .. | returned .. | closing _ => 0

/-- Whether the connection is lent by the shard. -/
def Conn.isLentBy (i : Nat) (conn : Conn) : Bool := conn.borrowed && conn.shard == i

/-- Whether the task waits for a dial of shard `i`, in a pool of `n` shards. -/
def Task.dials (n i : Nat) : Task → Bool
  | get ⟨start, attempt, .dialing⟩ => (start + attempt) % n = i
  | _ => false

/-- Whether the task is a return, a drain or a shutdown that waits for a connection to be closed. -/
def Task.closes : Task → Bool
  | .put _ | .strayPut | .verdict (.draining ..) | .shutdown (.draining ..) => true
  | _ => false

namespace Pool

/-- How many connections of shard `i` are lent. -/
def lentOf (p : Pool) (i : Nat) : Nat := p.conns.countP (·.isLentBy i)

/-- Every slot of a shard is taken for a lent connection, or by an activity that has it in hand. -/
def Slotted (p : Pool) (h : Hand) (hs : List Hand) : Prop :=
  ∀ i < p.shards.length, (p.shard i).active = p.lentOf i + h.slots i + (hs.map (·.slots i)).sum

variable {p q : Pool} {h k : Hand} {hs : List Hand} {i j : Nat} {c : ConnId}

theorem lentOf_modifyConn {g : Conn → Conn} {conn : Conn} (hconn : p.conns[c]? = some conn)
    (i : Nat) :
    (p.modifyConn c g).lentOf i + (if conn.isLentBy i then 1 else 0) =
      p.lentOf i + if (g conn).isLentBy i then 1 else 0 := by
  obtain ⟨hc, hget⟩ := List.getElem?_eq_some_iff.mp hconn
  obtain ⟨pre, old, post, hsplit, hlen, hmodify⟩ := List.exists_of_modify g hc
  have hold : old = conn := by
    rw [← hget]
    simp [hsplit, ← hlen]
  rw [lentOf, lentOf, modifyConn, hmodify, hsplit, hold]
  simp only [List.countP_append, List.countP_cons]
  omega

/-- A connection in hand is on the books of its shard, and not as lent. -/
theorem Conserved.exists_conn (hp : p.Conserved h hs) (hkept : h.kept? = some (i, c))
    (hclaims : h.claims c = 1) :
    ∃ conn, p.conns[c]? = some conn ∧ conn.shard = i ∧ conn.borrowed = false := by
  obtain ⟨conn, hconn, hshard⟩ := Option.map_eq_some_iff.mp
    (hp.hands h List.mem_cons_self i c hkept)
  have hlent := hp.isLent_eq_false hclaims
  rw [isLent, hconn, Option.any_some] at hlent
  exact ⟨conn, hconn, hshard, hlent⟩

theorem lentOf_lend (hp : p.Conserved (.popped i c) hs) (j : Nat) :
    (p.lend i c).lentOf j = p.lentOf j + if i = j then 1 else 0 := by
  obtain ⟨conn, hconn, rfl, hborrowed⟩ := hp.exists_conn rfl (if_pos rfl)
  have hcount := lentOf_modifyConn (g := fun conn => { conn with borrowed := true }) hconn j
  change (p.modifyConn c _).lentOf j = _
  simpa [Conn.isLentBy, hborrowed] using hcount

theorem lentOf_unlend {conn : Conn} {t : Duration} (hconn : p.conns[c]? = some conn)
    (hborrowed : conn.borrowed = true) (j : Nat) :
    (p.modifyConn c fun conn => { conn with borrowed := false, lastUsed := t }).lentOf j +
      (if conn.shard = j then 1 else 0) = p.lentOf j := by
  have hcount := lentOf_modifyConn
    (g := fun conn => { conn with borrowed := false, lastUsed := t }) hconn j
  simpa [Conn.isLentBy, hborrowed] using hcount

theorem lentOf_adopt (i j : Nat) :
    ({ p with conns := p.conns ++ [⟨i, true, p.now⟩] } : Pool).lentOf j =
      p.lentOf j + if i = j then 1 else 0 := by
  simp [lentOf, Conn.isLentBy]

/-- As many connections are lent where the same ones are. -/
theorem lentOf_congr (hlent : ∀ c : Nat, (q.conns[c]?).any (·.isLentBy i) =
    (p.conns[c]?).any (·.isLentBy i)) : q.lentOf i = p.lentOf i := by
  unfold lentOf
  generalize p.conns = l, q.conns = m at hlent
  induction l generalizing m with
  | nil =>
    refine List.countP_eq_zero.mpr fun conn hconn => ?_
    obtain ⟨c, hc⟩ := List.mem_iff_getElem?.mp hconn
    simpa [hc] using hlent c
  | cons x l ih =>
    cases m with
    | nil =>
      refine (List.countP_eq_zero.mpr fun conn hconn => ?_).symm
      obtain ⟨c, hc⟩ := List.mem_iff_getElem?.mp hconn
      simpa [hc] using hlent c
    | cons y m =>
      have hhead : y.isLentBy i = x.isLentBy i := hlent 0
      rw [List.countP_cons, List.countP_cons, ih m fun c => hlent (c + 1), hhead]

namespace Slotted

/-- What takes as many slots as it comes to need, and gives back those it needs no more, keeps them
all accounted for. -/
theorem shift (hp : p.Slotted h hs) (hlen : q.shards.length = p.shards.length)
    (hbalance : ∀ i < p.shards.length, (q.shard i).active + (p.lentOf i + h.slots i) =
      (p.shard i).active + (q.lentOf i + k.slots i)) : q.Slotted k hs := by
  intro i hi
  rw [hlen] at hi
  have hslots := hp i hi
  have hbalanced := hbalance i hi
  omega

theorem congr (hp : p.Slotted h hs) (hlen : q.shards.length = p.shards.length)
    (hconns : q.conns = p.conns) (hactive : ∀ i, (q.shard i).active = (p.shard i).active)
    (hslots : ∀ i, k.slots i = h.slots i) : q.Slotted k hs := by
  refine hp.shift hlen fun i _ => ?_
  rw [hactive, hslots, lentOf, lentOf, hconns]

theorem active_pos (hp : p.Slotted h hs) (hi : i < p.shards.length) (hslots : h.slots i = 1) :
    0 < (p.shard i).active := by
  have hactive := hp i hi
  omega

end Slotted

theorem active_lend (hi : i < p.shards.length) (j : Nat) :
    ((p.lend i c).shard j).active = (p.shard j).active + if i = j then 1 else 0 := by
  have hlend : (p.lend i c).shard j = if i = j then (p.shard j).occupySlot else p.shard j :=
    shard_modifyShard (p := p.modifyConn c _) hi j
  rw [hlend]
  split <;> rfl

theorem active_count (i j : Nat) (t : Tally → Tally) :
    ((p.count i t).shard j).active = (p.shard j).active :=
  aspect_modifyShard (f := fun s => s.count t) (g := Shard.active) (fun _ => rfl) j

theorem active_dial (hi : i < p.shards.length) (j : Nat) :
    (((p.modifyShard i Shard.occupySlot).count i Tally.countDial).shard j).active =
      (p.shard j).active + if i = j then 1 else 0 := by
  rw [active_count, shard_modifyShard hi]
  split <;> rfl

theorem active_releaseSlot (hi : i < p.shards.length) (hpos : 0 < (p.shard i).active) (j : Nat) :
    ((p.modifyShard i Shard.releaseSlot).shard j).active + (if i = j then 1 else 0) =
      (p.shard j).active := by
  rw [shard_modifyShard hi]
  split
  · rename_i hij
    subst hij
    exact Nat.sub_add_cancel hpos
  · rfl

theorem active_failDial (hi : i < p.shards.length) (hpos : 0 < (p.shard i).active) (j : Nat) :
    (((p.count i Tally.countDialError).modifyShard i Shard.releaseSlot).shard j).active +
      (if i = j then 1 else 0) = (p.shard j).active := by
  have hlt : i < (p.count i Tally.countDialError).shards.length := by rwa [length_shards_count]
  rw [active_releaseSlot hlt (by rwa [active_count]), active_count]

theorem Slotted.move (hmove : Move (p, h) (q, k)) (hconserved : p.Conserved h hs)
    (hp : p.Slotted h hs) : q.Slotted k hs := by
  have hlen : q.shards.length = p.shards.length := (Moves.single hmove).length_shards
  cases hmove with
  | quiet hquiet =>
    have hactive : ∀ j, (q.shard j).active = (p.shard j).active := fun j => by
      rw [shard, hquiet.shards, shard]
    exact hp.congr hlen hquiet.conns hactive fun _ => rfl
  | score hf =>
    exact hp.congr hlen rfl (aspect_modifyShard hf.active) fun _ => rfl
  | lend hi =>
    refine hp.shift hlen fun j _ => ?_
    rw [lentOf_lend hconserved, active_lend hi]
    simp only [Hand.slots]
    omega
  | dial hi _ _ =>
    refine hp.shift hlen fun j _ => ?_
    rw [active_dial hi]
    simp only [Hand.slots, Pool.count, lentOf, modifyShard]
    omega
  | @adopt _ i hi =>
    refine hp.shift hlen fun j _ => ?_
    rw [lentOf_adopt]
    simp only [Hand.slots, shard]
    omega
  | failDial hi =>
    refine hp.shift hlen fun j _ => ?_
    have hactive := active_failDial hi (hp.active_pos hi (if_pos rfl)) j
    simp only [Hand.slots, lentOf, modifyShard, Pool.count] at hactive ⊢
    omega
  | @unlend _ c conn hconn hborrowed =>
    refine hp.shift hlen fun j _ => ?_
    have hlent := lentOf_unlend (t := p.now) hconn hborrowed j
    simp only [Hand.slots, shard, modifyConn] at hlent ⊢
    omega
  | release hi =>
    refine hp.shift hlen fun j _ => ?_
    have hactive := active_releaseSlot hi (hp.active_pos hi (if_pos rfl)) j
    simp only [Hand.slots, lentOf, modifyShard] at hactive ⊢
    omega
  | promote _ _ | demote _ _ _ =>
    exact hp.congr hlen rfl
      (aspect_modifyShard (p := { p with numAvailable := _ }) (g := Shard.active) fun _ => rfl)
      fun _ => rfl
  | _ => exact hp.congr hlen rfl (aspect_modifyShard (g := Shard.active) fun _ => rfl) fun _ => rfl

theorem invariant_slotted : Invariant fun p h hs => p.Conserved h hs ∧ p.Slotted h hs where
  perm := by
    rintro p h hs hs' hperm ⟨hconserved, hp⟩
    refine ⟨invariant_conserved.perm hperm hconserved, fun i hi => ?_⟩
    rw [hp i hi, (hperm.map (·.slots i)).sum_nat]
  alike := by
    rintro p q h hs halike ⟨hconserved, hp⟩
    refine ⟨invariant_conserved.alike halike hconserved, hp.congr ?_ halike.conns ?_ fun _ => rfl⟩
    · rw [halike.shards]
    · exact fun j => by rw [shard, halike.shards, shard]
  move := by
    rintro p q h k hs hmove ⟨hconserved, hp⟩
    exact ⟨invariant_conserved.move hmove hconserved, hp.move hmove hconserved⟩
  take := by
    rintro p h hs ⟨hconserved, hp⟩
    refine ⟨invariant_conserved.take hconserved, fun i hi => ?_⟩
    rw [hp i hi, List.map_cons, List.sum_cons]
    simp only [Hand.slots]
    omega
  park := by
    rintro p h hs hparks ⟨hconserved, hp⟩
    refine ⟨invariant_conserved.park hparks hconserved, fun i hi => ?_⟩
    have hhanded : (p.handOver h).shards = p.shards ∧ (p.handOver h).conns = p.conns := by
      cases h <;> exact ⟨rfl, rfl⟩
    have hparked : h.parked.slots i = h.slots i := by cases h <;> rfl
    rw [hhanded.1] at hi
    have hactive := hp i hi
    rw [shard] at hactive
    rw [shard, lentOf, hhanded.1, hhanded.2, List.map_cons, List.sum_cons, hparked, hactive, lentOf]
    simp only [Hand.slots]
    omega
  tick := by
    rintro p now hs hnow ⟨hconserved, hp⟩
    exact ⟨invariant_conserved.tick hnow hconserved, hp⟩
  recount := by
    rintro p q hs hrecounted ⟨hconserved, hp⟩
    refine ⟨invariant_conserved.recount hrecounted hconserved, ?_⟩
    refine hp.congr hrecounted.length_shards hrecounted.conns (fun j => ?_) fun _ => rfl
    obtain ⟨t, ht⟩ := hrecounted.shard j
    rw [ht, Shard.count]

theorem slotted_of_create {config : Config} {addresses : List String} {now : Duration}
    (hcreate : create config addresses now = .ok p) : p.Slotted .free p.held := by
  obtain ⟨_, _, rfl⟩ := eq_of_create hcreate
  intro i _
  simp only [shard, note, List.getD_eq_getElem?_getD, List.getElem?_map, lentOf, held, Hand.slots]
  cases addresses[i]? <;> rfl

/-- The slots of every pool are accounted for after every run. -/
theorem slotted_after {config : Config} {addresses : List String} {now : Duration}
    (hcreate : create config addresses now = .ok p) {as : List Action} (hruns : p.Runs as) :
    (p.after as).Slotted .free (p.after as).held :=
  (invariant_slotted.after hruns (.of_create hcreate)
    ⟨conserved_of_create hcreate, slotted_of_create hcreate⟩).2

/-- How many dials of shard `i` are under way. -/
def dialing (p : Pool) (i : Nat) : Nat := p.tasks.countP (·.2.dials p.shards.length i)

/-- The slots that waiting tasks have in hand are those of the dials under way. -/
theorem sum_slots_held (p : Pool) (i : Nat) : (p.held.map (·.slots i)).sum = p.dialing i := by
  unfold held dialing
  induction p.tasks with
  | nil => rfl
  | cons x tasks ih =>
    rw [List.map_cons, List.map_cons, List.sum_cons, ih, List.countP_cons, Nat.add_comm]
    congr 1
    obtain ⟨id, t⟩ := x
    cases t with
    | get g =>
      obtain ⟨start, attempt, borrowing⟩ := g
      cases borrowing <;>
        simp [Task.hand, Getting.hand, Borrowing.hand, Hand.parked, Hand.slots, Task.dials]
    | verdict v => cases v <;> rfl
    | shutdown s => cases s <;> rfl
    | _ => rfl

theorem Slotted.active_eq (hp : p.Slotted .free p.held) (hi : i < p.shards.length) :
    (p.shard i).active = p.lentOf i + p.dialing i := by
  rw [hp i hi, sum_slots_held]
  rfl

theorem lentOf_pos {c : ConnId} {conn : Conn} (hconn : p.conns[c]? = some conn)
    (hborrowed : conn.borrowed = true) : 0 < p.lentOf conn.shard := by
  apply List.countP_pos_iff.mpr
  exact ⟨conn, List.mem_of_getElem? hconn, by simp [Conn.isLentBy, hborrowed]⟩

private theorem dialing_pos {id : TaskId} {start attempt : Nat}
    (ht : (id, .get ⟨start, attempt, .dialing⟩) ∈ p.tasks) :
    0 < p.dialing (p.visited start attempt) := by
  apply List.countP_pos_iff.mpr
  exact ⟨_, ht, by simp [Task.dials, visited]⟩

theorem active_recordOutcome (i : Nat) (failed : Bool) (j : Nat) :
    ((p.recordOutcome i failed).shard j).active = (p.shard j).active :=
  aspect_recordOutcome (g := Shard.active) (fun _ _ => rfl) i failed j

/-- A return gives back one slot. -/
theorem active_reclaim (hi : i < p.shards.length) (hpos : 0 < (p.shard i).active) (c : ConnId)
    (broken : Bool) : ((p.reclaim i c broken).shard i).active + 1 = (p.shard i).active := by
  let r := p.modifyConn c fun conn => { conn with borrowed := false, lastUsed := p.now }
  have hrecord : Moves r .free (r.recordOutcome i broken) .free := .recordOutcome (p := r) hi broken
  have hlen : i < ((r.recordOutcome i broken).count i (·.countPut broken)).shards.length := by
    rw [length_shards_count, hrecord.length_shards]
    exact hi
  have hactive : ∀ j, (((r.recordOutcome i broken).count i (·.countPut broken)).shard j).active =
      (p.shard j).active := by
    intro j
    rw [active_count, active_recordOutcome]
    rfl
  have hrelease := active_releaseSlot hlen (by rwa [hactive]) i
  rw [if_pos rfl, hactive] at hrelease
  exact hrelease

/-- A dial that fails gives back the slot that was taken for it. -/
theorem active_failed (hi : i < p.shards.length) (hpos : 0 < (p.shard i).active) (e : PoolError) :
    ((p.failDial i e).shard i).active + 1 = (p.shard i).active := by
  have hrecord : Moves p .free (p.recordOutcome i true) .free := .recordOutcome hi true
  have hfail := active_failDial (p := p.recordOutcome i true) (i := i)
    (by rwa [hrecord.length_shards]) (by rwa [active_recordOutcome]) i
  rw [if_pos rfl, active_recordOutcome] at hfail
  exact hfail

theorem active_take (i j : Nat) :
    (((p.dropIdle i).count i Tally.countClose).shard j).active = (p.shard j).active := by
  rw [active_count]
  exact active_modifyShard (f := fun s => { s with idle := s.idle.tail }) (fun _ => rfl) j

private theorem active_drain (i drained j : Nat) :
    ((p.drain i drained).1.shard j).active = (p.shard j).active := by
  unfold drain
  dsimp only
  split
  · exact active_take i j
  · rfl

private theorem active_closeLast (left j : Nat) :
    ((p.closeLast left).1.shard j).active = (p.shard j).active := by
  induction left generalizing p with
  | zero => rfl
  | succ left ih =>
    have hshut : ∀ i, ((p.modifyShard i fun s => { s with closed := true }).shard j).active =
        (p.shard j).active :=
      fun i => active_modifyShard (f := fun s => { s with closed := true }) (fun _ => rfl) j
    unfold closeLast
    dsimp only
    split
    · rw [active_take, hshut]
    · exact ih.trans (hshut _)

private theorem active_closeOn (i drained j : Nat) :
    ((p.closeOn i drained).1.shard j).active = (p.shard j).active := by
  unfold closeOn
  split
  · exact active_take i j
  · exact active_closeLast _ j

private theorem shard_noteIdleClose (i j : Nat) (reply : Reply) :
    (p.noteIdleClose i reply).shard j = p.shard j := by
  cases reply <;> rfl

private theorem active_advance_of_closes {t : Task} (ht : t.closes = true) (reply : Reply)
    (j : Nat) :
    ((p.advance t reply).1.shard j).active = (p.shard j).active := by
  cases t with
  | put c => rfl
  | strayPut => cases reply <;> rfl
  | verdict v =>
    cases v with
    | deciding i healthy => cases ht
    | draining i c drained =>
      change (((p.noteIdleClose i reply).drain i (drained + 1)).1.shard j).active = _
      rw [active_drain, shard_noteIdleClose]
  | shutdown s =>
    cases s with
    | queued | joining => cases ht
    | draining i c drained =>
      change (((p.noteIdleClose i reply).closeOn i (drained + 1)).1.shard j).active = _
      rw [active_closeOn, shard_noteIdleClose]
  | get | check => cases ht

/-- The slots of the shards, at a moment of a run. -/
structure SlotsKept (p : Pool) : Prop where
  /-- A slot is taken for each lent connection and for each dial under way. -/
  active : ∀ i < p.shards.length, (p.shard i).active = p.lentOf i + p.dialing i
  /-- A return gives one slot back. -/
  returns : ∀ c conn broken, p.conns[c]? = some conn → conn.borrowed = true →
    ((p.reclaim conn.shard c broken).shard conn.shard).active + 1 = (p.shard conn.shard).active
  /-- So does a dial that fails. -/
  failures : ∀ id start attempt e, p.task? id = some (.get ⟨start, attempt, .dialing⟩) →
    ((p.failDial (p.visited start attempt) e).shard (p.visited start attempt)).active + 1 =
      (p.shard (p.visited start attempt)).active
  /-- What the factory says to a close is nothing to the slots. -/
  closes : ∀ id t reply, p.task? id = some t → t.closes = true →
    ∀ i, ((p.resume id reply).1.shard i).active = (p.shard i).active

theorem Slotted.kept (hp : p.Slotted .free p.held) (hwf : p.WellFormed) : p.SlotsKept := by
  have hactive : ∀ i < p.shards.length, (p.shard i).active = p.lentOf i + p.dialing i :=
    fun i hi => hp.active_eq hi
  refine ⟨hactive, fun c conn broken hconn hborrowed => ?_, fun id start attempt e ht => ?_,
    fun id t reply ht hcloses i => ?_⟩
  · have hi : conn.shard < p.shards.length := hwf.conns conn (List.mem_of_getElem? hconn)
    have hlent := lentOf_pos hconn hborrowed
    have hsum := hactive _ hi
    exact active_reclaim hi (by omega) c broken
  · have hi : p.visited start attempt < p.shards.length := Nat.mod_lt _ hwf.shards
    have hdialing := dialing_pos (hwf.task?_eq_some_iff.mp ht)
    have hsum := hactive _ hi
    exact active_failed hi (by omega) e
  · rw [shard, shards_resume ht, ← shard]
    exact active_advance_of_closes hcloses reply i

/-- After every run of a pool, whatever the order in which its tasks and its health checker took
their turns and whatever the factory replied, the count of each shard is the number of its
connections that are lent and of its dials under way, and it is zero when there are none. The only
two steps that lower it, a return and a dial that fails, find a slot to give back. -/
theorem slots_accounted {config : Config} {addresses : List String} {now : Duration}
    (hcreate : create config addresses now = .ok p) {as : List Action} (hruns : p.Runs as) :
    (p.after as).SlotsKept ∧ ∀ i < addresses.length, (p.after as).lentOf i = 0 →
      (p.after as).dialing i = 0 → ((p.after as).shard i).active = 0 := by
  have hwf := WellFormed.of_create hcreate
  have hkept := (slotted_after hcreate hruns).kept (hwf.after as)
  refine ⟨hkept, fun i hi hlent hdialing => ?_⟩
  have hlen : (p.after as).shards.length = addresses.length := by
    obtain ⟨_, _, rfl⟩ := eq_of_create hcreate
    rw [(fixed_after hruns hwf).2]
    simp [note]
  rw [hkept.active i (hlen ▸ hi), hlent, hdialing]

/-- The dial of a shard fails and goes on at the next one, where another get is lent a
connection. -/
theorem slots_accounted_two :
    ∃ p, create {} ["a:1", "b:1"] .zero = .ok p ∧ ∃ as, p.Runs as ∧
      (p.after as).lentOf 1 = 1 ∧ (p.after as).dialing 1 = 1 ∧
      ((p.after as).shard 1).active = 1 + 1 ∧ ((p.after as).shard 0).active = 0 := by
  let as : List Action := [.start .get, .start .get, .resume 0 (.error .poolClosed),
    .resume 1 (.ok ())]
  have hcreate : create {} ["a:1", "b:1"] .zero = .ok _ := rfl
  refine ⟨_, hcreate, as, by decide, by decide, by decide, ?_, ?_⟩
  · exact ((slots_accounted hcreate (by decide)).1.active 1 (by decide)).trans (by decide)
  · exact (slots_accounted hcreate (by decide)).2 0 (by decide) (by decide) (by decide)

end Pool

end QuorumPool
