import Mathlib.Algebra.Order.BigOperators.Group.Finset
import QuorumPool.Proofs.Service

namespace QuorumPool

/-- How often a connection of the shard is in hand that may yet be lent or queued. -/
def Hand.spare (i : Nat) : Hand → Nat
  | popped j _ | returned j _ => if j = i then 1 else 0
  | free | slot _ | unlent .. | closing _ => 0

namespace Pool

/-- Every idle connection may be lent without passing the limit, when none of them is validated. -/
structure Bounded (p : Pool) (h : Hand) (hs : List Hand) : Prop where
  unvalidated : p.config.testOnBorrow = false ∨ p.config.maxIdle = 0
  limited : 0 < p.config.maxActive
  room : ∀ i < p.shards.length,
    (p.shard i).active + (p.shard i).idle.length + h.spare i ≤ p.config.maxActive
  waiting : ∀ x ∈ hs, ∀ i, x.spare i = 0
  queues : ∀ i, (p.shard i).idle ≠ [] → 0 < p.config.maxIdle
  popped : ∀ i c, h = .popped i c → 0 < p.config.maxIdle

variable {p q : Pool} {h k : Hand} {hs : List Hand} {i : Nat} {c : ConnId}

namespace Bounded

/-- What leaves no shard with more than it had keeps the room for its idle connections. -/
theorem shift (hp : p.Bounded h hs) (hconfig : q.config = p.config)
    (hlen : q.shards.length = p.shards.length)
    (hroom : ∀ i < p.shards.length, (q.shard i).active + (q.shard i).idle.length + k.spare i ≤
      (p.shard i).active + (p.shard i).idle.length + h.spare i)
    (hqueues : ∀ i, (q.shard i).idle ≠ [] → (p.shard i).idle ≠ [] ∨ 0 < p.config.maxIdle)
    (hpopped : ∀ i c, k = .popped i c → 0 < p.config.maxIdle) : q.Bounded k hs := by
  refine ⟨hconfig ▸ hp.unvalidated, hconfig ▸ hp.limited, fun i hi => ?_, hp.waiting,
    fun i hi => ?_, hconfig ▸ hpopped⟩
  · rw [hconfig]
    exact (hroom i (hlen ▸ hi)).trans (hp.room i (hlen ▸ hi))
  · rw [hconfig]
    exact (hqueues i hi).elim (hp.queues i) id

theorem congr (hp : p.Bounded h hs) (hconfig : q.config = p.config)
    (hlen : q.shards.length = p.shards.length)
    (hactive : ∀ i, (q.shard i).active = (p.shard i).active)
    (hidle : ∀ i, (q.shard i).idle = (p.shard i).idle) (hspare : ∀ i, k.spare i ≤ h.spare i)
    (hpopped : ∀ i c, k = .popped i c → h = .popped i c) : q.Bounded k hs := by
  refine hp.shift hconfig hlen (fun i _ => ?_) (fun i hi => .inl (hidle i ▸ hi))
    fun i c hk => hp.popped i c (hpopped i c hk)
  have hless := hspare i
  rw [hactive, hidle]
  omega

theorem pop {rest : List ConnId} (hp : p.Bounded .free hs) (hidle : (p.shard i).idle = c :: rest) :
    (p.dropIdle i).Bounded (.popped i c) hs := by
  have hqueue : 0 < p.config.maxIdle := hp.queues i (by simp [hidle])
  have hactive : ∀ j, ((p.dropIdle i).shard j).active = (p.shard j).active :=
    aspect_modifyShard (g := Shard.active) fun _ => rfl
  refine hp.shift rfl length_shards_dropIdle (fun j _ => ?_) (fun _ _ => .inr hqueue)
    fun _ _ _ => hqueue
  rw [hactive, idle_dropIdle]
  by_cases hij : i = j
  · subst hij
    simp only [Hand.spare, hidle, if_true, List.tail_cons, List.length_cons]
    omega
  · simp [Hand.spare, hij]

theorem lend (hp : p.Bounded (.popped i c) hs) (hi : i < p.shards.length) :
    (p.lend i c).Bounded .free hs := by
  have hidle : ∀ j, ((p.lend i c).shard j).idle = (p.shard j).idle :=
    idle_modifyShard (p := p.modifyConn c _) Shard.idle_occupySlot
  refine hp.shift rfl length_shards_lend (fun j _ => ?_) (fun j hj => .inl (hidle j ▸ hj)) ?_
  · rw [active_lend hi, hidle]
    simp only [Hand.spare]
    omega
  · intro _ _ hk
    cases hk

/-- A dial takes a slot that no idle connection is waiting for. -/
theorem dial (hp : p.Bounded .free hs) (hi : i < p.shards.length) (hidle : (p.shard i).idle = [])
    (hroom : (p.shard i).hasRoom p.config.maxActive = true) :
    ((p.modifyShard i Shard.occupySlot).count i Tally.countDial).Bounded (.slot i) hs := by
  have hlen : ((p.modifyShard i Shard.occupySlot).count i Tally.countDial).shards.length =
      p.shards.length := by simp
  have hlimit : (p.shard i).active < p.config.maxActive := by
    have hpos := hp.limited
    simp only [Shard.hasRoom, Bool.or_eq_true, beq_iff_eq, decide_eq_true_eq] at hroom
    omega
  refine ⟨hp.unvalidated, hp.limited, fun j hj => ?_, hp.waiting, fun j hj => ?_, ?_⟩
  · have hroomj := hp.room j (hlen ▸ hj)
    rw [active_dial hi, idle_dial]
    change _ ≤ p.config.maxActive
    by_cases hij : i = j
    · subst hij
      simp only [hidle, List.length_nil, Hand.spare, if_true]
      omega
    · simpa only [hij, if_false, Hand.spare, Nat.add_zero] using hroomj
  · exact hp.queues j (idle_dial j ▸ hj)
  · intro _ _ hk
    cases hk

theorem failDial (hp : p.Bounded (.slot i) hs) (hslots : p.Slotted (.slot i) hs)
    (hi : i < p.shards.length) :
    ((p.count i Tally.countDialError).modifyShard i Shard.releaseSlot).Bounded .free hs := by
  refine hp.shift rfl (by simp) (fun j _ => ?_) (fun j hj => .inl (idle_failDial j ▸ hj)) ?_
  · have hactive := active_failDial hi (hslots.active_pos hi (if_pos rfl)) j
    rw [idle_failDial]
    simp only [Hand.spare]
    omega
  · intro _ _ hk
    cases hk

theorem release (hp : p.Bounded (.unlent i c) hs) (hslots : p.Slotted (.unlent i c) hs)
    (hi : i < p.shards.length) :
    (p.modifyShard i Shard.releaseSlot).Bounded (.returned i c) hs := by
  have hrest : ∀ j, ((p.modifyShard i Shard.releaseSlot).shard j).idle = (p.shard j).idle :=
    idle_modifyShard Shard.idle_releaseSlot
  refine hp.shift rfl length_shards_modifyShard (fun j _ => ?_) (fun j hj => .inl (hrest j ▸ hj)) ?_
  · have hactive := active_releaseSlot hi (hslots.active_pos hi (if_pos rfl)) j
    rw [hrest]
    simp only [Hand.spare]
    omega
  · intro _ _ hk
    cases hk

theorem enqueue (hp : p.Bounded (.returned i c) hs) (hi : i < p.shards.length)
    (hlt : (p.shard i).idle.length < p.config.maxIdle) :
    (p.modifyShard i fun s => { s with idle := s.idle ++ [c] }).Bounded .free hs := by
  have hactive : ∀ j, ((p.modifyShard i fun s => { s with idle := s.idle ++ [c] }).shard
      j).active = (p.shard j).active := aspect_modifyShard (g := Shard.active) fun _ => rfl
  refine hp.shift rfl length_shards_modifyShard (fun j _ => ?_)
    (fun j _ => .inr (Nat.zero_lt_of_lt hlt)) ?_
  · rw [hactive, idle_enqueue hi]
    simp only [Hand.spare]
    split
    · rw [List.length_append, List.length_singleton]
      omega
    · exact Nat.le_refl _
  · intro _ _ hk
    cases hk

theorem move (hmove : Move (p, h) (q, k)) (hslots : p.Slotted h hs) (hp : p.Bounded h hs) :
    q.Bounded k hs := by
  have hlen : q.shards.length = p.shards.length := (Moves.single hmove).length_shards
  have hconfig : q.config = p.config := (Moves.single hmove).config_eq
  cases hmove with
  | pop hidle => exact hp.pop hidle
  | lend hi => exact hp.lend hi
  | dial hi hidle hroom => exact hp.dial hi hidle hroom
  | failDial hi => exact hp.failDial hslots hi
  | release hi => exact hp.release hslots hi
  | enqueue hi _ hlt => exact hp.enqueue hi hlt
  | quiet hquiet =>
    have hshard : ∀ j, q.shard j = p.shard j := fun j => by rw [shard, hquiet.shards, shard]
    exact hp.congr hconfig hlen (fun j => by rw [hshard]) (fun j => by rw [hshard])
      (fun _ => Nat.le_refl _) fun _ _ hk => hk
  | score hf =>
    exact hp.congr hconfig hlen (aspect_modifyShard hf.active) (idle_modifyShard hf.idle)
      (fun _ => Nat.le_refl _) fun _ _ hk => hk
  | promote _ _ | demote _ _ _ =>
    exact hp.congr hconfig hlen
      (aspect_modifyShard (p := { p with numAvailable := _ }) (g := Shard.active) fun _ => rfl)
      (idle_modifyShard (p := { p with numAvailable := _ }) fun _ => rfl)
      (fun _ => Nat.le_refl _) fun _ _ hk => hk
  | adopt _ | unlend _ _ =>
    exact hp.congr hconfig hlen (fun _ => rfl) (fun _ => rfl) (fun _ => Nat.le_refl _)
      fun _ _ hk => by cases hk
  | discard | refuse =>
    exact hp.congr hconfig hlen (aspect_modifyShard (g := Shard.active) fun _ => rfl)
      (idle_modifyShard fun _ => rfl) (fun _ => Nat.zero_le _) fun _ _ hk => by cases hk
  | shut =>
    exact hp.congr hconfig hlen (aspect_modifyShard (g := Shard.active) fun _ => rfl)
      (idle_modifyShard fun _ => rfl) (fun _ => Nat.le_refl _) fun _ _ hk => hk

/-- Where nothing is validated, nothing that may be lent is in hand over a wait. -/
theorem spare_eq_zero (hp : p.Bounded h hs) (hparks : h.Parks p.config) (i : Nat) :
    h.spare i = 0 := by
  cases h with
  | popped j c =>
    have hmax := hp.popped j c rfl
    obtain htest | hnone := hp.unvalidated
    · exact absurd hparks (by simp [Hand.Parks, htest])
    · omega
  | returned j c => exact hparks.elim
  | _ => rfl

end Bounded

theorem invariant_bounded :
    Invariant fun p h hs => (p.Conserved h hs ∧ p.Slotted h hs) ∧ p.Bounded h hs where
  perm := by
    rintro p h hs hs' hperm ⟨hslotted, hp⟩
    refine ⟨invariant_slotted.perm hperm hslotted, ?_⟩
    exact ⟨hp.unvalidated, hp.limited, hp.room, fun x hx => hp.waiting x (hperm.mem_iff.mpr hx),
      hp.queues, hp.popped⟩
  alike := by
    rintro p q h hs halike ⟨hslotted, hp⟩
    have hshard : ∀ j, q.shard j = p.shard j := fun j => by rw [shard, halike.shards, shard]
    refine ⟨invariant_slotted.alike halike hslotted, ?_⟩
    exact hp.congr halike.config (by rw [halike.shards]) (fun j => by rw [hshard])
      (fun j => by rw [hshard]) (fun _ => Nat.le_refl _) fun _ _ hk => hk
  move := by
    rintro p q h k hs hmove ⟨hslotted, hp⟩
    exact ⟨invariant_slotted.move hmove hslotted, hp.move hmove hslotted.2⟩
  take := by
    rintro p h hs ⟨hslotted, hp⟩
    refine ⟨invariant_slotted.take hslotted, hp.unvalidated, hp.limited, fun i hi => ?_,
      fun x hx => hp.waiting x (List.mem_cons_of_mem _ hx), hp.queues, fun i c hk => ?_⟩
    · rw [hp.waiting h List.mem_cons_self i]
      exact hp.room i hi
    · have hspare := hp.waiting h List.mem_cons_self i
      rw [hk] at hspare
      simp [Hand.spare] at hspare
  park := by
    rintro p h hs hparks ⟨hslotted, hp⟩
    refine ⟨invariant_slotted.park hparks hslotted, ?_⟩
    have hhanded : (p.handOver h).shards = p.shards ∧ (p.handOver h).config = p.config := by
      cases h <;> exact ⟨rfl, rfl⟩
    have hshard : ∀ j, (p.handOver h).shard j = p.shard j := fun j => by
      rw [shard, hhanded.1, shard]
    have hfree : (p.handOver h).Bounded .free hs :=
      hp.congr hhanded.2 (by rw [hhanded.1]) (fun j => by rw [hshard]) (fun j => by rw [hshard])
        (fun _ => Nat.zero_le _) fun _ _ hk => by cases hk
    refine ⟨hfree.unvalidated, hfree.limited, hfree.room, fun x hx => ?_, hfree.queues,
      hfree.popped⟩
    obtain rfl | hx := List.mem_cons.mp hx
    · intro i
      have hspare := hp.spare_eq_zero hparks i
      cases h <;> exact hspare
    · exact hp.waiting x hx
  tick := by
    rintro p now hs hnow ⟨hslotted, hp⟩
    exact ⟨invariant_slotted.tick hnow hslotted, hp.unvalidated, hp.limited, hp.room, hp.waiting,
      hp.queues, hp.popped⟩
  recount := by
    rintro p q hs hrecounted ⟨hslotted, hp⟩
    refine ⟨invariant_slotted.recount hrecounted hslotted, ?_⟩
    have hshard : ∀ j, (q.shard j).active = (p.shard j).active ∧
        (q.shard j).idle = (p.shard j).idle := by
      intro j
      obtain ⟨t, ht⟩ := hrecounted.shard j
      rw [ht]
      exact ⟨rfl, rfl⟩
    exact hp.congr hrecounted.config hrecounted.length_shards (fun j => (hshard j).1)
      (fun j => (hshard j).2) (fun _ => Nat.le_refl _) fun _ _ hk => hk

section Overrun

variable {config : Config} {n : Nat} {active : Nat → Nat}

open Finset in
/-- As long as a shard has room, another get dials, until all have reached the limit. -/
theorem Stands.exists_run_full (hp : p.Stands config n (fun _ => []) active [])
    (hwf : p.WellFormed) (hm : 0 < config.maxActive)
    (hle : ∀ i < n, active i ≤ config.maxActive) :
    ∃ as, p.Runs as ∧
      (p.after as).Stands config n (fun _ => []) (fun _ => config.maxActive) [] := by
  generalize hroom : ∑ i ∈ range n, (config.maxActive - active i) = room
  induction room using Nat.strong_induction_on generalizing p active with
  | _ room ih =>
    by_cases hfull : ∀ i < n, active i = config.maxActive
    · exact ⟨[], trivial, hp.congr (fun _ _ => rfl) hfull⟩
    · push Not at hfull
      obtain ⟨j, hj, hne⟩ := hfull
      obtain ⟨a, hi, hlt, hdial⟩ :=
        hp.exists_start_dial hm ⟨j, hj, Nat.lt_of_le_of_ne (hle j hj) hne⟩
      have hwf' : (p.start .get).1.WellFormed := hwf.act (.start .get)
      have hlent := Stands.resume_dialing [] [] hwf' hdial
      have hadmits := admits_resume_get [] [] hwf' hdial.tasks (.ok ())
      have hwf'' := hwf'.act (.resume p.nextTask (.ok ()))
      revert hi hlt hlent
      generalize p.visited p.rotation a = i
      intro hi hlt hlent
      have hless : ∑ k ∈ range n, (config.maxActive - Function.update active i (active i + 1) k) <
          room := by
        rw [← hroom]
        refine sum_lt_sum (fun k _ => ?_) ⟨i, mem_range.mpr hi, ?_⟩
        · by_cases hk : k = i
          · rw [hk, Function.update_self]
            omega
          · rw [Function.update_of_ne hk]
        · simp
          omega
      have hle' : ∀ k < n, Function.update active i (active i + 1) k ≤ config.maxActive := by
        intro k hk
        by_cases hki : k = i
        · rw [hki, Function.update_self]
          exact hlt
        · rw [Function.update_of_ne hki]
          exact hle k hk
      obtain ⟨as, hruns, hdone⟩ := ih _ hless hlent hwf'' hle' rfl
      exact ⟨.start .get :: .resume p.nextTask (.ok ()) :: as, ⟨trivial, hadmits, hruns⟩, hdone⟩

/-- From shards at their limit: a connection comes back, a get begins to validate it, a second one
dials in its place, and then both lend. -/
theorem Stands.exists_run_over (hp : p.Stands config n (fun _ => []) (fun _ => config.maxActive) [])
    (hwf : p.WellFormed) (hm : 0 < config.maxActive) (htest : config.testOnBorrow = true)
    (hmax : 0 < config.maxIdle) {conn : Conn} (hconn : p.conns[c]? = some conn)
    (hborrowed : conn.borrowed = true) (hi : conn.shard < n) :
    ∃ as, p.Runs as ∧ (p.after as).tasks = [] ∧
      ((p.after as).shard conn.shard).active = config.maxActive + 1 := by
  -- The connection comes back: its shard has a slot to spare, and it waits in the idle queue.
  obtain ⟨hback, hfresh⟩ := hp.start_put hconn hborrowed hi hmax
  have hwf1 : (p.start (.put c false)).1.WellFormed := hwf.act (.start (.put c false))
  obtain ⟨a, hvisit, hvalidate⟩ := hback.exists_start_validating hm hi
    (Function.update_self ..) (fun j _ hji => by simp [hji]) hfresh htest
  let p1 := (p.start (.put c false)).1
  have hwf2 : (p1.start .get).1.WellFormed := hwf1.act (.start .get)
  have hempty : (p1.start .get).1.Stands config n (fun _ => []) _ _ :=
    hvalidate.congr (fun j _ => by simp [Function.update_apply]) fun _ _ => rfl
  -- While it is validated no other shard has anything for the second get, so that one dials here.
  obtain ⟨b, _, hlt, hdial⟩ := hempty.exists_start_dial hm ⟨conn.shard, hi, by simp; omega⟩
  let p2 := (p1.start .get).1
  have hsame : p2.visited p2.rotation b = conn.shard := by
    by_contra hne
    rw [Function.update_of_ne hne] at hlt
    exact Nat.lt_irrefl _ hlt
  rw [hsame, Function.update_self, Function.update_idem, Nat.sub_add_cancel hm] at hdial
  have hwf3 : (p2.start .get).1.WellFormed := hwf2.act (.start .get)
  let p3 := (p2.start .get).1
  have hlent : (p3.resume p2.nextTask (.ok ())).1.Stands config n _ _ _ :=
    Stands.resume_dialing _ [] hwf3 hdial
  have hwf4 : (p3.resume p2.nextTask (.ok ())).1.WellFormed :=
    hwf3.act (.resume p2.nextTask (.ok ()))
  let p4 := (p3.resume p2.nextTask (.ok ())).1
  have hthere : p4.visited p1.rotation a = conn.shard := by
    rw [← hvisit, visited, visited, hlent.length, hback.length]
  have hover : (p4.resume p1.nextTask (.ok ())).1.Stands config n _ _ _ :=
    Stands.resume_validating [] [] hwf4 (hthere ▸ hi) hlent
  rw [hthere] at hover
  refine ⟨[.start (.put c false), .start .get, .start .get, .resume p2.nextTask (.ok ()),
    .resume p1.nextTask (.ok ())], ⟨trivial, trivial, trivial, ?_, ?_, trivial⟩, hover.tasks, ?_⟩
  · exact admits_resume_get _ [] hwf3 hdial.tasks _
  · exact admits_resume_get [] [] hwf4 hlent.tasks _
  · exact (hover.holds conn.shard hi).2.trans (by rw [Function.update_self, Function.update_self])

end Overrun

section Create

variable {config : Config} {addresses : List String} {now : Duration}

theorem bounded_of_create (hcreate : create config addresses now = .ok p)
    (hm : 0 < config.maxActive) (hcond : config.testOnBorrow = false ∨ config.maxIdle = 0) :
    p.Bounded .free p.held := by
  have hstands := stands_of_create hcreate
  have hheld : p.held = [] := by rw [held, hstands.tasks, List.map_nil]
  have hidle : ∀ i, (p.shard i).idle = [] := by
    intro i
    by_cases hi : i < addresses.length
    · exact (hstands.holds i hi).1
    · rw [shard_of_length_le (by rw [hstands.length]; omega)]
      rfl
  refine ⟨hstands.config ▸ hcond, hstands.config ▸ hm, fun i hi => ?_, fun x hx => ?_,
    fun i hi => absurd (hidle i) hi, fun i c hk => by cases hk⟩
  · rw [hidle, (hstands.holds i (hstands.length ▸ hi)).2]
    exact Nat.zero_le _
  · rw [hheld] at hx
    cases hx

/-- Where nothing is validated, no run takes the lent and the idle connections of a shard together past
its limit. -/
theorem active_add_idle_le (hcreate : create config addresses now = .ok p)
    (hm : 0 < config.maxActive) (hcond : config.testOnBorrow = false ∨ config.maxIdle = 0)
    {as : List Action} (hruns : p.Runs as) (i : Nat) :
    ((p.after as).shard i).active + ((p.after as).shard i).idle.length ≤ config.maxActive := by
  have hwf := WellFormed.of_create hcreate
  obtain ⟨_, hbounded⟩ := invariant_bounded.after hruns hwf
    ⟨⟨conserved_of_create hcreate, slotted_of_create hcreate⟩, bounded_of_create hcreate hm hcond⟩
  obtain ⟨hconfig, _⟩ := fixed_after hruns hwf
  by_cases hi : i < (p.after as).shards.length
  · have hroom := hbounded.room i hi
    rw [hconfig, (stands_of_create hcreate).config] at hroom
    omega
  · rw [shard_of_length_le (Nat.le_of_not_lt hi)]
    exact Nat.zero_le _

/-- Where nothing is validated, no run takes a shard past its limit. -/
theorem active_le_of_unvalidated (hcreate : create config addresses now = .ok p)
    (hm : 0 < config.maxActive) (hcond : config.testOnBorrow = false ∨ config.maxIdle = 0)
    {as : List Action} (hruns : p.Runs as) (i : Nat) :
    ((p.after as).shard i).active ≤ config.maxActive :=
  (Nat.le_add_right _ _).trans (active_add_idle_le hcreate hm hcond hruns i)

theorem lentOf_le_active (hcreate : create config addresses now = .ok p) {as : List Action}
    (hruns : p.Runs as) (i : Nat) : (p.after as).lentOf i ≤ ((p.after as).shard i).active := by
  have hslots := slotted_after hcreate hruns
  have hwf := (WellFormed.of_create hcreate).after as
  by_cases hi : i < (p.after as).shards.length
  · rw [hslots i hi]
    omega
  · have hnone : (p.after as).lentOf i = 0 := by
      apply List.countP_eq_zero.mpr
      intro conn hconn
      have hlt := hwf.conns conn hconn
      simp only [Conn.isLentBy, Bool.and_eq_true, beq_iff_eq, not_and]
      omega
    rw [hnone]
    exact Nat.zero_le _

/-- When no task is in flight every slot is taken for a lent connection. -/
theorem Slotted.lentOf_eq (hp : p.Slotted .free p.held) (htasks : p.tasks = [])
    (hi : i < p.shards.length) : p.lentOf i = (p.shard i).active := by
  rw [hp i hi, held, htasks]
  simp [Hand.slots]

/-- Where idle connections are validated, some run lends more connections of a shard than the limit
allows. -/
theorem exists_run_lentOf (hcreate : create config addresses now = .ok p)
    (hm : 0 < config.maxActive) (htest : config.testOnBorrow = true) (hmax : 0 < config.maxIdle) :
    ∃ as i, p.Runs as ∧ (p.after as).lentOf i = config.maxActive + 1 := by
  have hstands := stands_of_create hcreate
  have hwf := WellFormed.of_create hcreate
  obtain ⟨as, hruns, hfull⟩ := hstands.exists_run_full hwf hm fun _ _ => Nat.zero_le _
  have hn : 0 < addresses.length := hstands.length ▸ hwf.shards
  have hlent := (slotted_after hcreate hruns).lentOf_eq hfull.tasks (hfull.length ▸ hn)
  have hsome : 0 < (p.after as).lentOf 0 := by rwa [hlent, (hfull.holds 0 hn).2]
  obtain ⟨conn, hmem, hborrowed⟩ := List.countP_pos_iff.mp hsome
  obtain ⟨c, hconn⟩ := List.mem_iff_getElem?.mp hmem
  simp only [Conn.isLentBy, Bool.and_eq_true, beq_iff_eq] at hborrowed
  have hi : conn.shard < addresses.length := hborrowed.2 ▸ hn
  obtain ⟨bs, hmore, htasks, hactive⟩ :=
    hfull.exists_run_over (hwf.after _) hm htest hmax hconn hborrowed.1 hi
  have hall := runs_append.mpr ⟨hruns, hmore⟩
  refine ⟨as ++ bs, conn.shard, hall, ?_⟩
  rw [← after_append] at htasks hactive
  rw [(slotted_after hcreate hall).lentOf_eq htasks, hactive]
  rw [(fixed_after hall hwf).2, hstands.length]
  exact hi

/-- The limit bounds what the shards of a pool lend at once, in every run, if and only if no idle
connection is ever validated: because none is to be, or because none is kept. Else a slot that was
given back while its connection waited in the idle queue goes to a dial while the connection is
being validated, and the validated connection takes another one without a look at the limit. -/
theorem active_le_maxActive_iff (hcreate : create config addresses now = .ok p)
    (hm : 0 < config.maxActive) :
    (∀ as, p.Runs as → ∀ i, (p.after as).lentOf i ≤ ((p.after as).shard i).active) ∧
      ((∀ as, p.Runs as → ∀ i, ((p.after as).shard i).active ≤ config.maxActive) ↔
        config.testOnBorrow = false ∨ config.maxIdle = 0) ∧
      ((∀ as, p.Runs as → ∀ i, (p.after as).lentOf i ≤ config.maxActive) ↔
        config.testOnBorrow = false ∨ config.maxIdle = 0) := by
  have hlent : ∀ as, p.Runs as → ∀ i, (p.after as).lentOf i ≤ ((p.after as).shard i).active :=
    fun as hruns => lentOf_le_active hcreate hruns
  have hover : (∀ as, p.Runs as → ∀ i, (p.after as).lentOf i ≤ config.maxActive) →
      config.testOnBorrow = false ∨ config.maxIdle = 0 := by
    intro hlimit
    by_contra hcond
    rw [not_or, Bool.not_eq_false] at hcond
    obtain ⟨as, i, hruns, hmore⟩ :=
      exists_run_lentOf hcreate hm hcond.1 (Nat.pos_of_ne_zero hcond.2)
    have hless := hlimit as hruns i
    omega
  refine ⟨hlent, ⟨fun hlimit => hover ?_, fun hcond as hruns => ?_⟩, hover,
    fun hcond as hruns i => ?_⟩
  · exact fun as hruns i => (hlent as hruns i).trans (hlimit as hruns i)
  · exact active_le_of_unvalidated hcreate hm hcond hruns
  · exact (hlent as hruns i).trans (active_le_of_unvalidated hcreate hm hcond hruns i)

/-- A limit of one on the only shard of a pool that validates. -/
theorem active_le_maxActive_iff_one :
    ∃ p, create { maxActive := 1, testOnBorrow := true } ["a:1"] .zero = .ok p ∧
      ¬∀ as, p.Runs as → ∀ i, (p.after as).lentOf i ≤ 1 := by
  have hcreate : create { maxActive := 1, testOnBorrow := true } ["a:1"] .zero = .ok _ := rfl
  refine ⟨_, hcreate, fun hlimit => ?_⟩
  have hcond := (active_le_maxActive_iff hcreate (by decide)).2.2.mp hlimit
  exact absurd hcond (by decide)

/-- The limit also bounds the open connections of a shard, in every run of a pool that validates no
idle connection: those lent, with the dials under way, and those idle make up no more than it allows.
A dial is made only when nothing is idle, and every idle connection has given back the slot that it
takes when it is lent again. Where idle connections are kept and validated, some run has more. -/
theorem pooled_le_maxActive (hcreate : create config addresses now = .ok p)
    (hm : 0 < config.maxActive) :
    (config.testOnBorrow = false → ∀ as, p.Runs as → ∀ i,
      ((p.after as).shard i).active + ((p.after as).shard i).idle.length ≤ config.maxActive) ∧
    ((∀ as, p.Runs as → ∀ i,
      ((p.after as).shard i).active + ((p.after as).shard i).idle.length ≤ config.maxActive) →
      config.testOnBorrow = false ∨ config.maxIdle = 0) := by
  refine ⟨fun htest as hruns i => active_add_idle_le hcreate hm (.inl htest) hruns i,
    fun hlimit => ?_⟩
  by_contra hcond
  rw [not_or, Bool.not_eq_false] at hcond
  obtain ⟨as, i, hruns, hmore⟩ :=
    exists_run_lentOf hcreate hm hcond.1 (Nat.pos_of_ne_zero hcond.2)
  have hless := hlimit as hruns i
  have hlent := lentOf_le_active hcreate hruns i
  omega

/-- Of two connections, as many as the limit allows, one is lent and the other idle; a get that finds
it too old waits for it to close, and a second get dials in its place. -/
theorem pooled_le_maxActive_two :
    ∃ p as, create { maxActive := 2, idleTimeout := some ⟨5⟩ } ["a:1"] .zero = .ok p ∧
      p.Runs as ∧ ((p.after as).shard 0).active + ((p.after as).shard 0).idle.length ≤ 2 ∧
      (p.after as).conns.length = 2 ∧ ((p.after as).shard 0).active = 2 ∧
      (p.after as).tasks.length = 2 := by
  have hcreate : create { maxActive := 2, idleTimeout := some ⟨5⟩ } ["a:1"] .zero = .ok _ := rfl
  let as : List Action := [.start .get, .start .get, .resume 0 (.ok ()), .resume 1 (.ok ()),
    .start (.put 0 false), .setTime ⟨6⟩, .start .get, .start .get]
  refine ⟨_, as, hcreate, by decide, ?_, by decide, by decide, by decide⟩
  exact (pooled_le_maxActive hcreate (by decide)).1 rfl as (by decide) 0

end Create

end Pool

end QuorumPool
