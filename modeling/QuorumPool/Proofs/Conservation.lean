import Mathlib
import QuorumPool.Proofs.WellFormed

namespace QuorumPool

/-- How often the connection is in hand. -/
def Hand.claims (c : ConnId) : Hand → Nat
  | popped _ d | unlent _ d | returned _ d | closing d => if d = c then 1 else 0
  | free | slot _ => 0

/-- The connection in hand that a shard may still lend or queue, with its shard. -/
def Hand.kept? : Hand → Option (Nat × ConnId)
  | popped i c | unlent i c | returned i c => some (i, c)
  | free | slot _ | closing _ => none

/-- Whether the task validates the connection. -/
def Task.validates (c : ConnId) : Task → Bool
  | get ⟨_, _, .validating d⟩ => d = c
  | _ => false

namespace Pool

/-- The shard that dialed the connection. -/
def home (p : Pool) (c : ConnId) : Option Nat := p.conns[c]?.map Conn.shard

def isLent (p : Pool) (c : ConnId) : Bool := p.conns[c]?.any Conn.borrowed

/-- How often the connection waits in the idle queue of the shard that dialed it. -/
def queued (p : Pool) (c : ConnId) : Nat :=
  (p.home c).elim 0 fun i => (p.shard i).idle.count c

/-- How many gets in flight validate the connection. -/
def validations (p : Pool) (c : ConnId) : Nat := p.tasks.countP (·.2.validates c)

/-- How often the connection is anywhere, with `h` and `hs` in the hands of activities. -/
def presence (p : Pool) (h : Hand) (hs : List Hand) (c : ConnId) : Nat :=
  (p.isLent c).toNat + p.queued c + p.closeCalls c + h.claims c + (hs.map (·.claims c)).sum

/-- Every connection is in one place, and idle queues and hands have those of their own shards. -/
structure Conserved (p : Pool) (h : Hand) (hs : List Hand) : Prop where
  presence : ∀ c : Nat, p.presence h hs c = if c < p.conns.length then 1 else 0
  idle : ∀ i, ∀ c ∈ (p.shard i).idle, p.home c = some i
  hands : ∀ x ∈ h :: hs, ∀ i c, x.kept? = some (i, c) → p.home c = some i

variable {p q : Pool} {h k : Hand} {hs : List Hand} {i : Nat} {c : ConnId}

theorem lt_length_of_home (hhome : p.home c = some i) : c < p.conns.length := by
  obtain ⟨conn, hconn, _⟩ := Option.map_eq_some_iff.mp hhome
  exact (List.getElem?_eq_some_iff.mp hconn).1

theorem home_modifyConn {g : Conn → Conn} (hg : ∀ conn, (g conn).shard = conn.shard)
    (c d : ConnId) : (p.modifyConn c g).home d = p.home d := by
  rw [home, getElem?_modifyConn, Option.map_map, home]
  congr 1
  funext conn
  simp only [Function.comp]
  split
  · exact hg conn
  · rfl

theorem isLent_modifyConn {g : Conn → Conn} {b : Bool} (hg : ∀ conn, (g conn).borrowed = b)
    (hc : c < p.conns.length) (d : ConnId) :
    (p.modifyConn c g).isLent d = if c = d then b else p.isLent d := by
  by_cases hcd : c = d
  · subst hcd
    simp [isLent, getElem?_modifyConn, hc, hg]
  · simp [isLent, getElem?_modifyConn, hcd]

namespace Conserved

/-- A connection in hand is not lent. -/
theorem isLent_eq_false (hp : p.Conserved h hs) (hclaims : h.claims c = 1) :
    p.isLent c = false := by
  have hc := hp.presence c
  unfold Pool.presence at hc
  cases hlent : p.isLent c with
  | false => rfl
  | true =>
    rw [hlent, hclaims, Bool.toNat_true] at hc
    split at hc <;> omega

/-- What takes a connection from one place to another, and leaves the shards of all where they
are, keeps every connection in one place. -/
theorem shift (hp : p.Conserved h hs) (hlen : q.conns.length = p.conns.length)
    (hhome : ∀ d, q.home d = p.home d)
    (hbalance : ∀ d, (q.isLent d).toNat + q.queued d + q.closeCalls d + k.claims d =
      (p.isLent d).toNat + p.queued d + p.closeCalls d + h.claims d)
    (hidle : ∀ j, ∀ d ∈ (q.shard j).idle, d ∈ (p.shard j).idle ∨ p.home d = some j)
    (hkept : ∀ j d, k.kept? = some (j, d) → p.home d = some j) : q.Conserved k hs := by
  constructor
  · intro d
    have hd := hp.presence d
    have hbalanced := hbalance d
    rw [hlen]
    unfold Pool.presence at hd ⊢
    omega
  · intro j d hd
    rw [hhome]
    exact (hidle j d hd).elim (hp.idle j d) id
  · intro x hx j d hxd
    rw [hhome]
    obtain rfl | hx := List.mem_cons.mp hx
    · exact hkept j d hxd
    · exact hp.hands x (List.mem_cons_of_mem _ hx) j d hxd

/-- What takes no connection anywhere keeps every connection in one place. -/
theorem congr (hp : p.Conserved h hs) (hconns : q.conns = p.conns)
    (hcloses : ∀ d, q.closeCalls d = p.closeCalls d)
    (hidle : ∀ j, (q.shard j).idle = (p.shard j).idle) (hclaims : ∀ d, k.claims d = h.claims d)
    (hkept : ∀ x, k.kept? = some x → h.kept? = some x) : q.Conserved k hs := by
  have hhome : ∀ d, q.home d = p.home d := fun d => by rw [home, hconns, home]
  refine hp.shift (by rw [hconns]) hhome (fun d => ?_) (fun j d hd => .inl (hidle j ▸ hd)) ?_
  · simp only [isLent, queued, hconns, hhome, hidle, hcloses, hclaims]
  · exact fun j d hd => hp.hands h List.mem_cons_self j d (hkept _ hd)

theorem pop {rest : List ConnId} (hp : p.Conserved .free hs)
    (hidle : (p.shard i).idle = c :: rest) : (p.dropIdle i).Conserved (.popped i c) hs := by
  have hmem : c ∈ (p.shard i).idle := hidle ▸ List.mem_cons_self
  have hc : p.home c = some i := hp.idle i c hmem
  have hdrop : ∀ j, ((p.dropIdle i).shard j).idle =
      if i = j then rest else (p.shard j).idle := by
    intro j
    rw [idle_dropIdle]
    split
    · rename_i hij
      rw [← hij, hidle, List.tail_cons]
    · rfl
  refine hp.shift rfl (fun _ => rfl) (fun d => ?_) (fun j d hd => .inl ?_) ?_
  · have hqueued : (p.dropIdle i).queued d + (if c = d then 1 else 0) = p.queued d := by
      change ((p.home d).elim 0 fun j => ((p.dropIdle i).shard j).idle.count d) + _ =
        (p.home d).elim 0 fun j => (p.shard j).idle.count d
      simp only [hdrop]
      by_cases hcd : c = d
      · subst hcd
        simp [hc, hidle]
      · cases p.home d with
        | none => simp [hcd]
        | some j =>
          by_cases hij : i = j
          · subst hij
            simp [hidle, hcd]
          · simp [hij, hcd]
    change (p.isLent d).toNat + (p.dropIdle i).queued d + p.closeCalls d +
      (if c = d then 1 else 0) =
      (p.isLent d).toNat + p.queued d + p.closeCalls d + 0
    omega
  · rw [hdrop] at hd
    split at hd
    · rename_i hij
      rw [← hij, hidle]
      exact List.mem_cons_of_mem c hd
    · exact hd
  · intro j d hd
    cases hd
    exact hc

theorem lend (hp : p.Conserved (.popped i c) hs) : (p.lend i c).Conserved .free hs := by
  have hc : p.home c = some i := hp.hands _ List.mem_cons_self i c rfl
  have hold : p.isLent c = false := hp.isLent_eq_false (if_pos rfl)
  have hhome : ∀ d, (p.lend i c).home d = p.home d :=
    home_modifyConn (g := fun conn => { conn with borrowed := true }) (fun _ => rfl) c
  have hlent : ∀ d, (p.lend i c).isLent d = if c = d then true else p.isLent d :=
    isLent_modifyConn (g := fun conn => { conn with borrowed := true }) (fun _ => rfl)
      (lt_length_of_home hc)
  have hidle : ∀ j, ((p.lend i c).shard j).idle = (p.shard j).idle :=
    aspect_modifyShard (p := p.modifyConn c _) (f := Shard.occupySlot) (fun _ => rfl)
  refine hp.shift (List.length_modify ..) hhome (fun d => ?_) (fun j d hd => .inl (hidle j ▸ hd)) ?_
  · have hqueued : (p.lend i c).queued d = p.queued d := by simp only [queued, hhome, hidle]
    change ((p.lend i c).isLent d).toNat + (p.lend i c).queued d + p.closeCalls d + 0 =
      (p.isLent d).toNat + p.queued d + p.closeCalls d + if c = d then 1 else 0
    rw [hqueued, hlent]
    by_cases hcd : c = d
    · subst hcd
      simp [hold]
      omega
    · simp [hcd]
  · intro j d hd
    cases hd

theorem unlend {conn : Conn} (hp : p.Conserved .free hs) (hconn : p.conns[c]? = some conn)
    (hborrowed : conn.borrowed = true) :
    (p.modifyConn c fun conn => { conn with borrowed := false, lastUsed := p.now }).Conserved
      (.unlent conn.shard c) hs := by
  have hc : p.home c = some conn.shard := by rw [home, hconn, Option.map_some]
  have hold : p.isLent c = true := by simp [isLent, hconn, hborrowed]
  let q := p.modifyConn c fun conn => { conn with borrowed := false, lastUsed := p.now }
  have hhome : ∀ d, q.home d = p.home d :=
    home_modifyConn (g := fun conn => { conn with borrowed := false, lastUsed := p.now })
      (fun _ => rfl) c
  have hlent : ∀ d, q.isLent d = if c = d then false else p.isLent d :=
    isLent_modifyConn (fun _ => rfl) (lt_length_of_home hc)
  refine hp.shift (q := q) (List.length_modify ..) hhome (fun d => ?_) (fun j d hd => .inl hd) ?_
  · have hqueued : q.queued d = p.queued d := by rw [queued, hhome, queued]; rfl
    change (q.isLent d).toNat + q.queued d + p.closeCalls d + (if c = d then 1 else 0) =
      (p.isLent d).toNat + p.queued d + p.closeCalls d + 0
    rw [hqueued, hlent]
    by_cases hcd : c = d
    · subst hcd
      simp [hold]
      omega
    · simp [hcd]
  · intro j d hd
    cases hd
    exact hc

theorem enqueue (hp : p.Conserved (.returned i c) hs) (hi : i < p.shards.length) :
    (p.modifyShard i fun s => { s with idle := s.idle ++ [c] }).Conserved .free hs := by
  have hc : p.home c = some i := hp.hands _ List.mem_cons_self i c rfl
  let q := p.modifyShard i fun s => { s with idle := s.idle ++ [c] }
  have hidle : ∀ j, (q.shard j).idle =
      if i = j then (p.shard j).idle ++ [c] else (p.shard j).idle := idle_enqueue hi
  refine hp.shift (q := q) rfl (fun _ => rfl) (fun d => ?_) (fun j d hd => ?_) ?_
  · have hqueued : q.queued d = p.queued d + if c = d then 1 else 0 := by
      change ((p.home d).elim 0 fun j => (q.shard j).idle.count d) =
        ((p.home d).elim 0 fun j => (p.shard j).idle.count d) + _
      simp only [hidle]
      by_cases hcd : c = d
      · subst hcd
        simp [hc]
      · cases p.home d with
        | none => simp [hcd]
        | some j =>
          by_cases hij : i = j
          · subst hij
            simp [hcd]
          · simp [hij, hcd]
    change (p.isLent d).toNat + q.queued d + p.closeCalls d + 0 =
      (p.isLent d).toNat + p.queued d + p.closeCalls d + if c = d then 1 else 0
    omega
  · rw [hidle] at hd
    split at hd
    · rename_i hij
      obtain hd | hd := List.mem_append.mp hd
      · exact .inl hd
      · exact .inr (List.mem_singleton.mp hd ▸ hij ▸ hc)
    · exact .inl hd
  · intro j d hd
    cases hd

/-- A freshly dialed connection is lent from the start. -/
theorem adopt (hp : p.Conserved (.slot i) hs) :
    ({ p with conns := p.conns ++ [⟨i, true, p.now⟩] } : Pool).Conserved .free hs := by
  let q : Pool := { p with conns := p.conns ++ [⟨i, true, p.now⟩] }
  have hold : ∀ d, d ≠ p.conns.length → q.conns[d]? = p.conns[d]? := by
    intro d hd
    by_cases hlt : d < p.conns.length
    · exact List.getElem?_append_left hlt
    · rw [List.getElem?_eq_none (l := p.conns) (by omega), List.getElem?_eq_none]
      simp only [q, List.length_append, List.length_singleton]
      omega
  have hhome : ∀ d j, p.home d = some j → q.home d = some j := by
    intro d j hd
    rw [home, hold d (Nat.ne_of_lt (lt_length_of_home hd)), ← hd, home]
  constructor
  · intro (d : Nat)
    have hd := hp.presence d
    change (q.isLent d).toNat + q.queued d + p.closeCalls d + 0 + (hs.map (·.claims d)).sum =
      if d < q.conns.length then 1 else 0
    have hlen : q.conns.length = p.conns.length + 1 := by simp [q]
    rw [Pool.presence] at hd
    -- The new connection is lent and nowhere else: the idle queues have only older ones.
    by_cases hdl : d = p.conns.length
    · have hslot : (Hand.slot i).claims d = 0 := rfl
      have hlent : q.isLent d = true := by simp [isLent, q, hdl]
      have hqueued : q.queued d = 0 := by
        have hqd : q.home d = some i := by simp [home, q, hdl]
        change (q.home d).elim 0 (fun j => (p.shard j).idle.count d) = 0
        rw [hqd]
        apply List.count_eq_zero.mpr
        intro hmem
        have hlt : d < p.conns.length := lt_length_of_home (hp.idle i d hmem)
        omega
      rw [hlent, hqueued, hlen, if_pos (by omega), Bool.toNat_true]
      rw [if_neg (by omega)] at hd
      omega
    · have hlent : q.isLent d = p.isLent d := by rw [isLent, hold d hdl, isLent]
      have hqueued : q.queued d = p.queued d := by
        rw [queued, home, hold d hdl, queued, home]
        rfl
      have hslot : (Hand.slot i).claims d = 0 := rfl
      rw [hlent, hqueued, hlen]
      split at hd <;> split <;> omega
  · exact fun j d hd => hhome d j (hp.idle j d hd)
  · intro x hx j d hxd
    obtain rfl | hx := List.mem_cons.mp hx
    · cases hxd
    · exact hhome d j (hp.hands x (List.mem_cons_of_mem _ hx) j d hxd)

end Conserved

theorem invariant_conserved : Invariant Conserved where
  perm := by
    intro p h hs hs' hperm hp
    refine ⟨fun c => ?_, hp.idle, fun x hx => hp.hands x ?_⟩
    · have hc := hp.presence c
      rwa [presence, (hperm.map (·.claims c)).sum_nat] at hc
    · exact (hperm.cons h).mem_iff.mpr hx
  alike := by
    intro p q h hs halike hp
    have hidle : ∀ j, (q.shard j).idle = (p.shard j).idle := by
      intro j
      rw [shard, halike.shards, shard]
    exact hp.congr halike.conns halike.closeCalls hidle (fun _ => rfl) (fun _ hx => hx)
  move := by
    intro p q h k hs hmove hp
    cases hmove with
    | quiet hquiet =>
      have hidle : ∀ j, (q.shard j).idle = (p.shard j).idle := by
        intro j
        rw [shard, hquiet.shards, shard]
      exact hp.congr hquiet.conns hquiet.closeCalls hidle (fun _ => rfl) (fun _ hx => hx)
    | score hf =>
      exact hp.congr rfl (fun _ => rfl) (idle_modifyShard hf.idle) (fun _ => rfl)
        (fun _ hx => hx)
    | pop hidle => exact hp.pop hidle
    | lend _ => exact hp.lend
    | unlend hconn hborrowed => exact hp.unlend hconn hborrowed
    | adopt _ => exact hp.adopt
    | enqueue hi _ _ => exact hp.enqueue hi
    | discard | refuse =>
      exact hp.congr rfl (fun _ => rfl) (idle_modifyShard fun _ => rfl) (fun _ => rfl)
        (fun _ hx => by cases hx)
    | release _ =>
      exact hp.congr rfl (fun _ => rfl) (idle_modifyShard fun _ => rfl) (fun _ => rfl)
        (fun _ hx => hx)
    | dial _ _ _ =>
      exact hp.congr rfl (fun _ => rfl) idle_dial (fun _ => rfl) (fun _ hx => by cases hx)
    | failDial _ =>
      exact hp.congr rfl (fun _ => rfl) idle_failDial (fun _ => rfl) (fun _ hx => by cases hx)
    | promote _ _ | demote _ _ _ =>
      exact hp.congr rfl (fun _ => rfl)
        (idle_modifyShard (p := { p with numAvailable := _ }) fun _ => rfl)
        (fun _ => rfl) (fun _ hx => hx)
    | shut =>
      exact hp.congr rfl (fun _ => rfl) (idle_modifyShard fun _ => rfl) (fun _ => rfl)
        (fun _ hx => hx)
  take := by
    intro p h hs hp
    refine ⟨fun c => ?_, hp.idle, fun x hx => hp.hands x (List.mem_cons_of_mem _ hx)⟩
    have hc := hp.presence c
    rw [presence, List.map_cons, List.sum_cons] at hc
    rw [presence, ← hc]
    simp only [Hand.claims]
    omega
  park := by
    intro p h hs hparks hp
    have hmoved : ∀ c, (p.handOver h).closeCalls c + h.parked.claims c =
        p.closeCalls c + h.claims c := by
      intro c
      cases h with
      | closing d => simp [handOver, closeCalls, ask, Hand.parked, Hand.claims, List.count_cons]
      | _ => rfl
    have hconns : (p.handOver h).conns = p.conns := by cases h <;> rfl
    have hshards : (p.handOver h).shards = p.shards := by cases h <;> rfl
    have hhome : ∀ c, (p.handOver h).home c = p.home c := fun c => by rw [home, hconns, home]
    refine ⟨fun c => ?_, fun i c hc => ?_, fun x hx i c hxc => ?_⟩
    · have hc := hp.presence c
      have hmovedc := hmoved c
      rw [presence] at hc ⊢
      simp only [isLent, queued, shard, hconns, hshards, hhome, List.map_cons,
        List.sum_cons] at hc ⊢
      have hfree : Hand.free.claims c = 0 := rfl
      omega
    · rw [hhome]
      exact hp.idle i c (by simpa only [shard, hshards] using hc)
    · rw [hhome]
      obtain rfl | hx := List.mem_cons.mp hx
      · cases hxc
      obtain rfl | hx := List.mem_cons.mp hx
      · exact hp.hands h List.mem_cons_self i c (by cases h <;> exact hxc)
      · exact hp.hands x (List.mem_cons_of_mem _ hx) i c hxc
  tick := by
    intro p now hs _ hp
    exact hp.congr rfl (fun _ => rfl) (fun _ => rfl) (fun _ => rfl) (fun _ hx => hx)
  recount := by
    intro p q hs hrecounted hp
    have hidle : ∀ j, (q.shard j).idle = (p.shard j).idle := by
      intro j
      obtain ⟨t, ht⟩ := hrecounted.shard j
      rw [ht, Shard.count]
    exact hp.congr hrecounted.conns hrecounted.closeCalls hidle (fun _ => rfl) (fun _ hx => hx)

theorem conserved_of_create {config : Config} {addresses : List String} {now : Duration}
    (hcreate : create config addresses now = .ok p) : p.Conserved .free p.held := by
  obtain ⟨_, _, rfl⟩ := eq_of_create hcreate
  have hidle : ∀ i, ((((addresses.map fun a => { address := a }) : List Shard).getD i
      default).idle) = [] := by
    intro i
    rw [List.getD_eq_getElem?_getD, List.getElem?_map]
    cases addresses[i]? <;> rfl
  refine ⟨fun c => ?_, fun i c hc => ?_, fun x hx i c hxc => ?_⟩
  · simp [presence, isLent, queued, home, closeCalls, held, note, Hand.claims]
  · rw [shard, note, hidle] at hc
    cases hc
  · obtain rfl | hx := List.mem_cons.mp hx
    · cases hxc
    · cases hx

/-- The hands of waiting tasks hold exactly the connections that are validated. -/
theorem sum_claims_held (p : Pool) (c : ConnId) :
    (p.held.map (·.claims c)).sum = p.validations c := by
  unfold held validations
  induction p.tasks with
  | nil => rfl
  | cons x tasks ih =>
    rw [List.map_cons, List.map_cons, List.sum_cons, ih, List.countP_cons, Nat.add_comm]
    congr 1
    obtain ⟨id, t⟩ := x
    cases t with
    | get g =>
      obtain ⟨start, attempt, borrowing⟩ := g
      cases borrowing <;>
        simp [Task.hand, Getting.hand, Borrowing.hand, Hand.parked, Hand.claims, Task.validates,
          eq_comm]
    | verdict v => cases v <;> rfl
    | shutdown s => cases s <;> rfl
    | _ => rfl

private theorem Conserved.count_idle (hp : p.Conserved h hs) (c : ConnId) (i : Nat) :
    (p.shard i).idle.count c = if p.home c = some i then p.queued c else 0 := by
  split
  · rename_i hhome
    rw [queued, hhome]
    rfl
  · rename_i hhome
    exact List.count_eq_zero.mpr fun hc => hhome (hp.idle i c hc)

/-- Connections stay with their shards, and calls that closed them stay made. -/
structure Extends (r p : Pool) : Prop where
  home : ∀ c i, r.home c = some i → p.home c = some i
  closeCalls : ∀ c, r.closeCalls c ≤ p.closeCalls c

private theorem Extends.of_conns_eq {r : Pool} (hp : r.Extends p) (hconns : q.conns = p.conns)
    (hcloses : ∀ c, p.closeCalls c ≤ q.closeCalls c) : r.Extends q where
  home c i hc := by
    rw [Pool.home, hconns]
    exact hp.home c i hc
  closeCalls c := Nat.le_trans (hp.closeCalls c) (hcloses c)

/-- What a pool has at some time it keeps. -/
theorem invariant_extends (r : Pool) : Invariant fun p _ _ => r.Extends p where
  perm _ hp := hp
  alike halike hp := hp.of_conns_eq halike.conns fun c => Nat.le_of_eq (halike.closeCalls c).symm
  move := by
    intro p q h k hs hmove hp
    cases hmove with
    | quiet hquiet =>
      exact hp.of_conns_eq hquiet.conns fun c => Nat.le_of_eq (hquiet.closeCalls c).symm
    | @lend _ i c _ =>
      refine ⟨fun d j hd => ?_, hp.closeCalls⟩
      refine (home_modifyConn (g := fun conn => { conn with borrowed := true }) ?_ c d).trans ?_
      · exact fun _ => rfl
      · exact hp.home d j hd
    | @unlend _ c _ _ _ =>
      refine ⟨fun d j hd => ?_, hp.closeCalls⟩
      refine (home_modifyConn (g := fun conn => { conn with borrowed := false, lastUsed := p.now })
        ?_ c d).trans ?_
      · exact fun _ => rfl
      · exact hp.home d j hd
    | adopt _ =>
      refine ⟨fun d j hd => ?_, hp.closeCalls⟩
      have hold := hp.home d j hd
      rw [home, List.getElem?_append_left (lt_length_of_home hold)]
      exact hold
    | _ => exact hp.of_conns_eq rfl fun _ => Nat.le_refl _
  take hp := hp
  park := by
    intro p h hs _ hp
    cases h with
    | closing d =>
      refine hp.of_conns_eq rfl fun c => ?_
      simp only [closeCalls, handOver, ask, List.count_cons]
      exact Nat.le_add_right _ _
    | _ => exact hp
  tick _ hp := hp.of_conns_eq rfl fun _ => Nat.le_refl _
  recount hrecounted hp :=
    hp.of_conns_eq hrecounted.conns fun c => Nat.le_of_eq (hrecounted.closeCalls c).symm

theorem Extends.lt_length {r : Pool} (hp : r.Extends p) (hc : (c : Nat) < r.conns.length) :
    (c : Nat) < p.conns.length := by
  obtain ⟨i, hhome⟩ : ∃ i, r.home c = some i := by simp [Pool.home, hc]
  exact lt_length_of_home (hp.home c i hhome)

theorem Extends.refl (p : Pool) : p.Extends p := ⟨fun _ _ hc => hc, fun _ => Nat.le_refl _⟩

end Pool

/-- Where a connection dialed for lending may be. -/
inductive Place where
  | lent | idle | validating | closed
deriving DecidableEq

namespace Pool

variable {p : Pool} {c : ConnId}

/-- What it is for a connection to be in a place: it is there once, and nowhere else. -/
def At (p : Pool) (c : ConnId) : Place → Prop
  | .lent => p.isLent c = true ∧ (∀ i, c ∉ (p.shard i).idle) ∧ p.validations c = 0 ∧
      p.closeCalls c = 0
  | .idle => p.isLent c = false ∧
      (∀ i, (p.shard i).idle.count c = if p.home c = some i then 1 else 0) ∧
      p.validations c = 0 ∧ p.closeCalls c = 0
  | .validating => p.isLent c = false ∧ (∀ i, c ∉ (p.shard i).idle) ∧ p.validations c = 1 ∧
      p.closeCalls c = 0
  | .closed => p.isLent c = false ∧ (∀ i, c ∉ (p.shard i).idle) ∧ p.validations c = 0 ∧
      p.closeCalls c = 1

private theorem place_unique {a b : Place} (ha : p.At c a) (hb : p.At c b) : a = b := by
  cases a <;> cases b <;> simp_all [At]

theorem Conserved.exists_place (hp : p.Conserved .free p.held) (hc : (c : Nat) < p.conns.length) :
    ∃ place, p.At c place := by
  have hone := hp.presence c
  rw [Pool.presence, sum_claims_held, if_pos hc] at hone
  have hfree : Hand.free.claims c = 0 := rfl
  have hidle : p.queued c = 0 → ∀ i, c ∉ (p.shard i).idle := by
    intro hzero i
    rw [← List.count_eq_zero, hp.count_idle c i, hzero, ite_self]
  cases hlent : p.isLent c with
  | true =>
    rw [hlent, Bool.toNat_true] at hone
    exact ⟨.lent, hlent, hidle (by omega), by omega, by omega⟩
  | false =>
    rw [hlent, Bool.toNat_false] at hone
    by_cases hqueued : p.queued c = 1
    · exact ⟨.idle, hlent, fun i => hqueued ▸ hp.count_idle c i, by omega, by omega⟩
    by_cases hvalid : p.validations c = 1
    · exact ⟨.validating, hlent, hidle (by omega), hvalid, by omega⟩
    · exact ⟨.closed, hlent, hidle (by omega), by omega, by omega⟩

theorem Conserved.lent (hp : p.Conserved .free p.held) (hlent : p.isLent c = true) :
    p.At c .lent := by
  obtain ⟨conn, hconn, -⟩ := (Option.any_eq_true ..).mp hlent
  obtain ⟨place, hplace⟩ := hp.exists_place (List.getElem?_eq_some_iff.mp hconn).1
  cases place with
  | lent => exact hplace
  | idle | validating | closed => exact absurd hlent (by simp [hplace.1])

theorem Conserved.closed (hp : p.Conserved .free p.held) (hcalls : 0 < p.closeCalls c) :
    p.At c .closed := by
  have hc : (c : Nat) < p.conns.length := by
    by_contra hc
    have hnone := hp.presence c
    rw [if_neg hc, Pool.presence] at hnone
    omega
  obtain ⟨place, hplace⟩ := hp.exists_place hc
  cases place with
  | closed => exact hplace
  | lent | idle | validating => exact absurd hcalls (by simp [hplace.2.2.2])

/-- A connection that waits in an idle queue is nowhere else. -/
theorem Conserved.idle_of_mem (hp : p.Conserved .free p.held) {i : Nat}
    (hc : c ∈ (p.shard i).idle) : p.At c .idle := by
  obtain ⟨place, hplace⟩ := hp.exists_place (lt_length_of_home (hp.idle i c hc))
  cases place with
  | idle => exact hplace
  | lent | validating | closed => exact absurd hc (hplace.2.1 i)

/-- A connection that was handed over to be closed is closed from then on. -/
theorem Conserved.closed_after (hp : p.Conserved .free p.held) (hwf : p.WellFormed)
    (hcalls : 0 < p.closeCalls c) {as : List Action} (hruns : p.Runs as) :
    (p.after as).At c .closed := by
  have hlater := (invariant_extends p).after hruns hwf (.refl p)
  exact (invariant_conserved.after hruns hwf hp).closed
    (Nat.lt_of_lt_of_le hcalls (hlater.closeCalls c))

theorem exists_conn_of_isLent (hlent : p.isLent c = true) :
    ∃ i lastUsed, p.conns[c]? = some ⟨i, true, lastUsed⟩ := by
  obtain ⟨⟨i, borrowed, lastUsed⟩, hconn, hborrowed⟩ := (Option.any_eq_true ..).mp hlent
  dsimp only at hborrowed
  exact ⟨i, lastUsed, hborrowed ▸ hconn⟩

/-- A connection that is not lent is not taken back. -/
theorem put_of_not_lent (hlent : p.isLent c = false) (broken : Bool) :
    p.put c broken = (p, .done (.error .invalidReturn)) := by
  unfold put
  split
  · rename_i hconn
    simp [isLent, hconn] at hlent
  · rfl

/-- A return leaves it open whether its shard takes idle connections. -/
theorem acceptsIdle_reclaim (i : Nat) (c : ConnId) (broken : Bool) (j : Nat) :
    ((p.reclaim i c broken).shard j).acceptsIdle = (p.shard j).acceptsIdle := by
  let q := p.modifyConn c fun conn => { conn with borrowed := false, lastUsed := p.now }
  have hrelease := aspect_modifyShard (p := (q.recordOutcome i broken).count i (·.countPut broken))
    (i := i) (f := Shard.releaseSlot) (g := Shard.acceptsIdle) (fun _ => rfl) j
  have hcount := aspect_modifyShard (p := q.recordOutcome i broken) (i := i)
    (f := (·.count (·.countPut broken))) (g := Shard.acceptsIdle) (fun _ => rfl) j
  exact hrelease.trans (hcount.trans (aspect_recordOutcome (fun _ _ => rfl) i broken j))

/-- A connection that comes back broken, or to a shard that takes none, is handed over to be
closed. -/
theorem Conserved.closed_of_put (hp : p.Conserved .free p.held) (hwf : p.WellFormed) {conn : Conn}
    (hconn : p.conns[c]? = some conn) (hborrowed : conn.borrowed = true) {broken : Bool}
    (hrefused : (broken || !(p.shard conn.shard).acceptsIdle) = true) :
    (∃ id, (p.start (.put c broken)).2 = .waits id) ∧ ∀ as,
      (p.start (.put c broken)).1.Runs as →
        ((p.start (.put c broken)).1.after as).At c .closed := by
  obtain ⟨i, borrowed, lastUsed⟩ := conn
  dsimp only at hborrowed hrefused
  subst hborrowed
  have hput : p.put c broken = ((p.reclaim i c broken).count i Tally.countClose, .waits ()) := by
    simp only [put, hconn, acceptsIdle_reclaim, hrefused, if_true]
  have hwaits : (∃ id, (p.start (.put c broken)).2 = .waits id) ∧
      0 < (p.start (.put c broken)).1.closeCalls c := by
    simp only [start, begin, hput, Prod.map, Progress.map]
    exact ⟨⟨_, rfl⟩, List.count_pos_iff.mpr List.mem_cons_self⟩
  have hruns : p.Runs [.start (.put c broken)] := ⟨trivial, trivial⟩
  have hlater : (p.start (.put c broken)).1.Conserved .free _ :=
    invariant_conserved.after hruns hwf hp
  exact ⟨hwaits.1, fun as hruns =>
    hlater.closed_after (hwf.act (.start (.put c broken))) hwaits.2 hruns⟩

/-- After every run of a pool, and so whatever the order in which gets, returns, verdicts, health
checks and shutdowns took their turns and whatever the factory replied, each connection dialed for
lending is in exactly one place. It is never forgotten and stays with its shard, and one that was
handed over to be closed stays closed: it is not lent, queued or closed again. -/
theorem connection_in_exactly_one_place {config : Config} {addresses : List String}
    {now : Duration} (hcreate : create config addresses now = .ok p) {as : List Action}
    (hruns : p.Runs as) (hc : (c : Nat) < (p.after as).conns.length) :
    (∃! place, (p.after as).At c place) ∧
      ∀ bs, (p.after as).Runs bs →
        (c : Nat) < (p.after (as ++ bs)).conns.length ∧
        (p.after (as ++ bs)).home c = (p.after as).home c ∧
        ((p.after as).At c .closed → (p.after (as ++ bs)).At c .closed) := by
  have hwf := WellFormed.of_create hcreate
  have hconserved : ∀ {cs}, p.Runs cs → (p.after cs).Conserved .free (p.after cs).held :=
    fun hcs => invariant_conserved.after hcs hwf (conserved_of_create hcreate)
  constructor
  · obtain ⟨place, hplace⟩ := (hconserved hruns).exists_place hc
    exact ⟨place, hplace, fun _ hother => place_unique hother hplace⟩
  · intro bs hbs
    have hextends : (p.after as).Extends (p.after (as ++ bs)) := by
      rw [after_append]
      exact (invariant_extends _).after hbs (hwf.after _) (.refl _)
    obtain ⟨conn, hconn⟩ : ∃ conn, (p.after as).conns[c]? = some conn :=
      ⟨_, List.getElem?_eq_getElem hc⟩
    have hhome : (p.after as).home c = some conn.shard := by rw [home, hconn, Option.map_some]
    have hlater := hextends.home c _ hhome
    have hlength := lt_length_of_home hlater
    refine ⟨hlength, hlater.trans hhome.symm, fun hclosed => ?_⟩
    obtain ⟨place, hplace⟩ := (hconserved (runs_append.mpr ⟨hruns, hbs⟩)).exists_place hlength
    have hcalls := hextends.closeCalls c
    rw [hclosed.2.2.2] at hcalls
    cases place with
    | closed => exact hplace
    | lent | idle | validating =>
      rw [hplace.2.2.2] at hcalls
      omega

/-- A connection that is validated while its shard is demoted, and closed because it fails. -/
theorem connection_in_exactly_one_place_validating :
    ∃ p, create { testOnBorrow := true } ["a:1"] .zero = .ok p ∧
      ∃ as bs : List Action, p.Runs as ∧ (p.after as).Runs bs ∧
        (∃! place, (p.after as).At 0 place) ∧ (p.after as).validations 0 = 1 ∧
        (p.after (as ++ bs)).home 0 = (p.after as).home 0 ∧
        (p.after (as ++ bs)).closeCalls 0 = 1 := by
  let as : List Action := [.start .get, .resume 0 (.ok ()), .start (.put 0 false), .start .get,
    .start (.mark 0 false), .resume 2 (.ok ())]
  let bs : List Action := [.resume 1 (.error .poolExhausted)]
  have hcreate : create { testOnBorrow := true } ["a:1"] .zero = .ok _ := rfl
  refine ⟨_, hcreate, as, bs, by decide, by decide, ?_, by decide, ?_, by decide⟩
  · exact (connection_in_exactly_one_place hcreate (by decide) (by decide)).1
  · exact ((connection_in_exactly_one_place hcreate (by decide) (by decide)).2 bs (by decide)).2.1

end Pool

end QuorumPool
