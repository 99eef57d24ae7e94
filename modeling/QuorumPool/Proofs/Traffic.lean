import QuorumPool.Proofs.Dials
import QuorumPool.Proofs.Links
import QuorumPool.Proofs.Occurrences
import QuorumPool.Redis.Pool

namespace QuorumPool

variable {C : Client}

/-- Whether the call is about a connection that the pool has dialed for lending, or dials one. -/
def Call.isOwn : Call → Bool
  | dial .. | validate (.own _) | close (.own _) => true
  | probe _ | validate _ | close _ => false

/-- The action with another reply of the factory. -/
def Action.withReply (reply : Reply) : Action → Action
  | .resume id _ => .resume id reply
  | .resumeChecker _ => .resumeChecker reply
  | a => a

/-- A pool of Redis connections at work, with the network that it works on. -/
structure Traffic (C : Client) where
  network : C.Network
  redis : RedisPool C

/-- What happens to a pool of Redis connections. -/
inductive Dealing (C : Client) : Type 1 where
  /-- The pool takes an action. The client replies to what it asked about connections of its own,
  and the action says what comes of other calls. -/
  | act (action : Action)
  | release (conn : ConnId)
  /-- A command is run on a connection. -/
  | query {α : Type} (conn : ConnId) (command : C.Command)
      (read : C.Reply → Except RedisError α)
  /-- Anything else happens on the network. -/
  | others (network : C.Network)

namespace Traffic

def pool (t : Traffic C) : Pool := t.redis.pool

def link (t : Traffic C) (c : ConnId) : Link C := t.redis.link c

/-- What the client does for an action of the pool, and the action with its reply. -/
def answer (t : Traffic C) (a : Action) : RedisPool.Reach C × Action :=
  match t.pool.answeredCall? a with
  | none => (t.redis.reach t.network, a)
  | some call =>
    if call.isOwn then
      let (r, reply) := RedisPool.Reach.serve (t.redis.reach t.network) call
      (r, a.withReply reply)
    else (t.redis.reach t.network, a)

/-- The traffic after the dealing. -/
def act (t : Traffic C) : Dealing C → Traffic C
  | .act a =>
    let (r, b) := t.answer a
    { network := r.network, redis := { t.redis with pool := t.pool.act b, links := r.links } }
  | .release c =>
    { t with redis := { t.redis with pool := (t.pool.start (.put c (t.link c).broken)).1 } }
  | .query c command read =>
    let (network, k, _) := (t.link c).query t.network command read
    { network, redis := { t.redis with links := t.redis.links.set c k } }
  | .others network => { t with network }

/-- Whether the dealing may come next: a connection is returned by a release only, and queried only
while it is lent. -/
def Admits (t : Traffic C) : Dealing C → Prop
  | .act a => t.pool.Admits a ∧ a.isPut = false
  | .query c _ _ => t.pool.isLent c = true
  | .release _ | .others _ => True

/-- The traffic after the dealings, in their order. -/
def after (t : Traffic C) : List (Dealing C) → Traffic C
  | [] => t
  | d :: ds => (t.act d).after ds

/-- Whether each of the dealings may come next when its turn comes. -/
def Runs (t : Traffic C) : List (Dealing C) → Prop
  | [] => True
  | d :: ds => t.Admits d ∧ (t.act d).Runs ds

/-- The connection that the dealing lends to the get it answers. -/
def lends? (t : Traffic C) : Dealing C → Option ConnId
  | .act a => t.pool.lends? (t.answer a).2
  | .release _ | .query .. | .others _ => none

/-- Whether the dealing is a query on the connection, and leaves it in doubt. -/
def Taints (t : Traffic C) (c : ConnId) : Dealing C → Prop
  | .query d command read => d = c ∧ Doubts ((t.link c).query t.network command read).2.2
  | .act _ | .release _ | .others _ => False

/-- Whether some query among the dealings leaves the connection in doubt. -/
def Tainted (t : Traffic C) (c : ConnId) : List (Dealing C) → Prop
  | [] => False
  | d :: ds => t.Taints c d ∨ (t.act d).Tainted c ds

variable {t u : Traffic C} {c : ConnId} {d : Dealing C} {ds es : List (Dealing C)}

theorem after_append (t : Traffic C) (ds es : List (Dealing C)) :
    t.after (ds ++ es) = (t.after ds).after es := by
  induction ds generalizing t with
  | nil => rfl
  | cons d ds ih => exact ih (t.act d)

theorem runs_append : t.Runs (ds ++ es) ↔ t.Runs ds ∧ (t.after ds).Runs es := by
  induction ds generalizing t with
  | nil => simp [Runs, after]
  | cons d ds ih => simp only [List.cons_append, Runs, after, ih, and_assoc]

section Answer

variable {a : Action}

private theorem isPut_withReply (reply : Reply) : (a.withReply reply).isPut = a.isPut := by
  cases a <;> rfl

private theorem admits_withReply (reply : Reply) (p : Pool) :
    p.Admits (a.withReply reply) ↔ p.Admits a := by
  cases a <;> rfl

private theorem answeredCall?_withReply (reply : Reply) (p : Pool) :
    p.answeredCall? (a.withReply reply) = p.answeredCall? a := by
  cases a <;> rfl

theorem isPut_answer (t : Traffic C) (a : Action) : (t.answer a).2.isPut = a.isPut := by
  unfold answer
  split
  · rfl
  split
  · exact isPut_withReply _
  · rfl

theorem admits_answer (t : Traffic C) (a : Action) :
    t.pool.Admits (t.answer a).2 ↔ t.pool.Admits a := by
  unfold answer
  split
  · exact Iff.rfl
  split
  · exact admits_withReply _ _
  · exact Iff.rfl

end Answer

/-- What holds of a pool at work, when the connections of which `doubted` holds are those that some
query has left in doubt. -/
structure Sound (t : Traffic C) (doubted : ConnId → Prop) : Prop where
  wellFormed : t.pool.WellFormed
  conserved : t.pool.Conserved .free t.pool.held
  length : t.redis.links.length = t.pool.conns.length
  /-- A connection that was not given up is marked if and only if it is in doubt. -/
  marked : ∀ c : Nat, c < t.pool.conns.length → t.pool.closeCalls c = 0 →
    ((t.link c).broken = true ↔ doubted c)
  /-- A connection in doubt is lent, or was given up. -/
  held : ∀ c, doubted c → t.pool.closeCalls c = 0 → t.pool.isLent c = true

theorem isLent_lt (hlent : t.pool.isLent c = true) : (c : Nat) < t.pool.conns.length := by
  obtain ⟨_, _, hconn⟩ := Pool.exists_conn_of_isLent hlent
  exact (List.getElem?_eq_some_iff.mp hconn).1

/-- A connection of the pool that is replaced is another from then on, and the others stay. -/
theorem getD_set {links : List (Link C)} (hc : (c : Nat) < links.length) (k : Link C) (e : ConnId) :
    (links.set c k).getD e default = if c = e then k else links.getD e default := by
  simp only [List.getD_eq_getElem?_getD, List.getElem?_set, hc, if_true]
  split <;> rfl

theorem getD_set_self {links : List (Link C)} (hc : (c : Nat) < links.length) (k : Link C) :
    (links.set c k).getD c default = k :=
  (getD_set hc k c).trans (if_pos rfl)

/-- A connection of the pool that was given up is closed. -/
theorem closed_set_close {rp : RedisPool C} (hc : (c : Nat) < rp.links.length) (n : C.Network) :
    ((rp.links.set c ((rp.link c).close n).2).getD c default).closed = true := by
  rw [getD_set_self hc]
  exact Link.closed_close _ _

namespace Sound

variable {D : ConnId → Prop}

/-- A connection that is lent was not given up, and is marked if and only if it is in doubt. -/
theorem marked_of_lent (ht : t.Sound D) (hlent : t.pool.isLent c = true) :
    (t.link c).broken = true ↔ D c :=
  ht.marked c (isLent_lt hlent) (ht.conserved.lent hlent).2.2.2

/-- What brings the pool no connections and leaves the marks as they are. -/
theorem shift (ht : t.Sound D) (hwf : u.pool.WellFormed)
    (hconserved : u.pool.Conserved .free u.pool.held)
    (hconns : u.pool.conns.length = t.pool.conns.length)
    (hcalls : ∀ c, t.pool.closeCalls c ≤ u.pool.closeCalls c)
    (hlength : u.redis.links.length = t.redis.links.length)
    (hbroken : ∀ c : Nat, c < t.pool.conns.length → u.pool.closeCalls c = 0 →
      (u.link c).broken = (t.link c).broken)
    (hheld : ∀ c, D c → t.pool.isLent c = true → u.pool.closeCalls c = 0 →
      u.pool.isLent c = true) : u.Sound D where
  wellFormed := hwf
  conserved := hconserved
  length := by rw [hlength, hconns, ht.length]
  marked c hc hopen := by
    have hbefore : t.pool.closeCalls c = 0 := Nat.eq_zero_of_le_zero (hopen ▸ hcalls c)
    rw [hconns] at hc
    rw [← ht.marked c hc hbefore, hbroken c hc hopen]
  held c hdoubted hopen := by
    have hbefore : t.pool.closeCalls c = 0 := Nat.eq_zero_of_le_zero (hopen ▸ hcalls c)
    exact hheld c hdoubted (ht.held c hdoubted hbefore) hopen

/-- The pool keeps what it kept over an action. -/
theorem act_pool (ht : t.Sound D) {a : Action} (hadmits : t.pool.Admits a) :
    (t.pool.act a).WellFormed ∧ (t.pool.act a).Conserved .free (t.pool.act a).held ∧
      ∀ c, t.pool.closeCalls c ≤ (t.pool.act a).closeCalls c := by
  have hruns : t.pool.Runs [a] := ⟨hadmits, trivial⟩
  have hextends := (Pool.invariant_extends t.pool).after hruns ht.wellFormed (.refl _)
  exact ⟨ht.wellFormed.act a, Pool.invariant_conserved.after hruns ht.wellFormed ht.conserved,
    hextends.closeCalls⟩

end Sound

/-- What the client has to do with an action of the pool: it makes a connection for a dial that
succeeds. Else it makes none, and marks none that is not given up with the action. -/
inductive Answered (t : Traffic C) (r : RedisPool.Reach C) (b : Action) : Prop
  | plain (length : r.links.length = t.redis.links.length) (adopts : t.pool.adopts b = false)
      (broken : ∀ c : Nat, c < t.pool.conns.length → (t.pool.act b).closeCalls c = 0 →
        (r.links.getD c default).broken = (t.link c).broken)
  | dialed (k : Link C) (links : r.links = t.redis.links ++ [k]) (adopts : t.pool.adopts b = true)
      (broken : k.broken = false)

namespace Sound

variable {D : ConnId → Prop}

theorem answered_dial {id : TaskId} {i : Nat} {address : String}
    (hcall : t.pool.call? id = some (.dial i address)) :
    t.Answered (RedisPool.Reach.serve (t.redis.reach t.network) (.dial i address)).1
      (.resume id (RedisPool.Reach.serve (t.redis.reach t.network) (.dial i address)).2) := by
  simp only [RedisPool.Reach.serve, RedisPool.reach, Dialer.create]
  rcases hdial : t.redis.dialer.dial t.network address with ⟨m, e | k⟩
  · exact .plain rfl rfl fun _ _ _ => rfl
  · obtain ⟨handle, rfl⟩ := Dialer.dial_eq_ok hdial
    exact .dialed _ rfl (by simp [Pool.adopts, Except.mapError, hcall, Call.isDial]) rfl

theorem answered_validate (ht : t.Sound D) {id : TaskId} {c : ConnId}
    (hcall : t.pool.call? id = some (.validate (.own c))) :
    t.Answered (RedisPool.Reach.serve (t.redis.reach t.network) (.validate (.own c))).1
      (.resume id (RedisPool.Reach.serve (t.redis.reach t.network) (.validate (.own c))).2) := by
  obtain ⟨start, attempt, htask⟩ := Pool.exists_validating_of_call hcall
  have hc : (c : Nat) < t.redis.links.length := ht.length ▸ Pool.lt_length_of_home
    (ht.conserved.spared (ht.wellFormed.task?_eq_some_iff.mp htask) c rfl).1
  have hadopts : t.pool.adopts (.resume id
      (RedisPool.Reach.serve (t.redis.reach t.network) (.validate (.own c))).2) = false :=
    Pool.adopts_eq_false (by simp [Pool.answeredCall?, hcall, Call.isDial])
  refine .plain (List.length_set ..) hadopts fun e _ hopen => ?_
  change ((t.redis.links.set c ((t.link c).validate t.network).2.1).getD e default).broken = _
  rw [getD_set hc]
  by_cases hce : c = e
  · subst hce
    rw [if_pos rfl]
    rcases hvalid : (t.link c).validate t.network with ⟨m, k, failure | _⟩
    · -- If it failed, the pool would have given the connection up.
      have hgiven := Pool.closeCalls_of_invalid htask failure
      have hnone : (t.pool.resume id ((t.link c).validate t.network).2.2).1.closeCalls c = 0 :=
        hopen
      rw [hvalid] at hnone
      exact absurd hnone (Nat.ne_of_gt hgiven)
    · rw [Link.validate_eq_ok hvalid]
  · rw [if_neg hce]
    rfl

theorem answered_close {a : Action} {c : ConnId}
    (hcall : t.pool.answeredCall? a = some (.close (.own c))) :
    t.Answered (RedisPool.Reach.serve (t.redis.reach t.network) (.close (.own c))).1
      (a.withReply (RedisPool.Reach.serve (t.redis.reach t.network) (.close (.own c))).2) := by
  refine .plain (List.length_set ..) (Pool.adopts_eq_false ?_) fun e _ _ => ?_
  · rw [answeredCall?_withReply, hcall]
    rfl
  · change ((t.redis.links.set c ((t.link c).close t.network).2).getD e default).broken = _
    by_cases hc : (c : Nat) < t.redis.links.length
    · rw [getD_set hc]
      split
      · rename_i hce
        rw [Link.broken_close, hce]
      · rfl
    · rw [List.set_eq_of_length_le (Nat.le_of_not_lt hc)]
      rfl

theorem answered (ht : t.Sound D) (a : Action) : t.Answered (t.answer a).1 (t.answer a).2 := by
  unfold answer
  split
  · rename_i hnone
    exact .plain rfl (Pool.adopts_eq_false (by rw [hnone]; rfl)) fun _ _ _ => rfl
  rename_i call hcall
  split
  · rename_i hown
    cases call with
    | dial i address =>
      obtain ⟨id, reply, rfl, hasked⟩ := Pool.exists_resume_of_own hcall (.inl rfl)
      exact answered_dial hasked
    | probe address => cases hown
    | validate target =>
      cases target with
      | own c =>
        obtain ⟨id, reply, rfl, hasked⟩ := Pool.exists_resume_of_own hcall (.inr ⟨c, rfl⟩)
        exact ht.answered_validate hasked
      | probe => cases hown
      | stray => cases hown
    | close target =>
      cases target with
      | own c => exact answered_close hcall
      | probe => cases hown
      | stray => cases hown
  · rename_i hown
    refine .plain rfl (Pool.adopts_eq_false ?_) fun _ _ _ => rfl
    rw [hcall]
    cases call with
    | dial i address => exact absurd rfl hown
    | _ => rfl

theorem not_of_length_le (ht : t.Sound D) (hc : t.pool.conns.length ≤ (c : Nat)) : ¬D c := by
  intro hdoubted
  have hnone := ht.conserved.presence c
  rw [if_neg (Nat.not_lt.mpr hc), Pool.presence] at hnone
  exact absurd (isLent_lt (ht.held c hdoubted (by omega))) (Nat.not_lt.mpr hc)

/-- No action of the pool leaves a connection of its own in doubt that it keeps. -/
theorem action (ht : t.Sound D) {a : Action} (hadmits : t.pool.Admits a) (hput : a.isPut = false) :
    (t.act (.act a)).Sound D := by
  obtain ⟨hwf, hconserved, hcalls⟩ := ht.act_pool ((admits_answer t a).mpr hadmits)
  have hlends := Pool.lends_act ht.wellFormed ht.conserved ((isPut_answer t a).trans hput)
  have hconns := Pool.length_conns_act t.pool (t.answer a).2
  have hheld : ∀ c, D c → t.pool.isLent c = true → (t.act (.act a)).pool.closeCalls c = 0 →
      (t.act (.act a)).pool.isLent c = true := by
    intro c _ hlent _
    refine (hlends.isLent c).trans ?_
    rw [hlent, Bool.true_or]
  cases ht.answered a with
  | plain length adopts broken =>
    rw [adopts] at hconns
    exact ht.shift hwf hconserved hconns hcalls length broken hheld
  | dialed k links adopts broken =>
    rw [adopts, Bool.toNat_true] at hconns
    refine ⟨hwf, hconserved, ?_, fun (c : Nat) hc hopen => ?_, fun c hdoubted hopen => ?_⟩
    · refine (congrArg List.length links).trans ?_
      rw [List.length_append, ht.length]
      exact hconns.symm
    · change ((t.answer a).1.links.getD c default).broken = true ↔ D c
      rw [links]
      obtain hold | rfl : c < t.pool.conns.length ∨ c = t.pool.conns.length := by
        have hlt : c < t.pool.conns.length + 1 := Nat.lt_of_lt_of_eq hc hconns
        omega
      · have hbefore : t.pool.closeCalls c = 0 := Nat.eq_zero_of_le_zero (hopen ▸ hcalls c)
        rw [List.getD_append _ _ _ _ (ht.length ▸ hold)]
        exact ht.marked c hold hbefore
      · rw [← ht.length, List.getD_append_right _ _ _ _ (Nat.le_refl _), Nat.sub_self]
        refine iff_of_false (by simp [broken]) (ht.not_of_length_le (Nat.le_of_eq ht.length.symm))
    · have hbefore : t.pool.closeCalls c = 0 := Nat.eq_zero_of_le_zero (hopen ▸ hcalls c)
      exact hheld c hdoubted (ht.held c hdoubted hbefore) hopen

/-- A release of a connection in doubt hands it over to be closed. -/
theorem closed_of_release (ht : t.Sound D) (hlent : t.pool.isLent c = true) (hdoubted : D c) :
    (∃ id, (t.pool.start (.put c (t.link c).broken)).2 = .waits id) ∧
      ∀ as, (t.act (.release c)).pool.Runs as →
        ((t.act (.release c)).pool.after as).At c .closed := by
  obtain ⟨i, lastUsed, hconn⟩ := Pool.exists_conn_of_isLent hlent
  have hbroken : (t.link c).broken = true := (ht.marked_of_lent hlent).mpr hdoubted
  exact ht.conserved.closed_of_put ht.wellFormed hconn rfl (by rw [hbroken, Bool.true_or])

theorem release (ht : t.Sound D) (c : ConnId) : (t.act (.release c)).Sound D := by
  have hadmits : t.pool.Admits (.start (.put c (t.link c).broken)) := trivial
  obtain ⟨hwf, hconserved, hcalls⟩ := ht.act_pool hadmits
  have hconns := Pool.length_conns_act t.pool (.start (.put c (t.link c).broken))
  refine ht.shift hwf hconserved hconns hcalls rfl (fun _ _ _ => rfl) fun e hdoubted hlent hopen => ?_
  change (t.pool.start (.put c (t.link c).broken)).1.isLent e = true
  cases hc : t.pool.isLent c with
  | false => rwa [Pool.start_put_of_not_lent hc]
  | true =>
    rw [(Pool.takesBack_of_lent hc (t.link c).broken).2 e, hlent, Bool.true_and,
      decide_eq_true_iff]
    rintro rfl
    have hclosed := ((ht.closed_of_release hc hdoubted).2 [] trivial).2.2.2
    exact absurd (hclosed.symm.trans hopen) (by omega)

/-- A query marks its connection if it leaves it in doubt. -/
theorem query (ht : t.Sound D) {α : Type} (hlent : t.pool.isLent c = true) (command : C.Command)
    (read : C.Reply → Except RedisError α) :
    (t.act (.query c command read)).Sound fun e => D e ∨ t.Taints e (.query c command read) := by
  have hc : (c : Nat) < t.redis.links.length := ht.length ▸ isLent_lt hlent
  refine ⟨ht.wellFormed, ht.conserved, (List.length_set ..).trans ht.length,
    fun e he hopen => ?_, fun e hdoubted hopen => ?_⟩
  · rw [← ht.marked e he hopen]
    change ((t.redis.links.set c ((t.link c).query t.network command read).2.1).getD e
      default).broken = true ↔ _
    rw [getD_set hc]
    by_cases hce : c = e
    · subst hce
      rw [if_pos rfl, Link.broken_query]
      exact or_congr_right (and_iff_right rfl).symm
    · rw [if_neg hce]
      simp only [Taints, hce, false_and, or_false]
      rfl
  · obtain hdoubted | ⟨rfl, -⟩ := hdoubted
    · exact ht.held e hdoubted hopen
    · exact hlent

/-- Every dealing keeps what holds of a pool at work. -/
theorem act (ht : t.Sound D) (hadmits : t.Admits d) :
    (t.act d).Sound fun c => D c ∨ t.Taints c d := by
  cases d with
  | act a => simpa only [Taints, or_false] using ht.action hadmits.1 hadmits.2
  | release c => simpa only [Taints, or_false] using ht.release c
  | query c command read => exact ht.query hadmits command read
  | others m =>
    simp only [Taints, or_false]
    exact ⟨ht.wellFormed, ht.conserved, ht.length, ht.marked, ht.held⟩

theorem after (ht : t.Sound D) (hruns : t.Runs ds) :
    (t.after ds).Sound fun c => D c ∨ t.Tainted c ds := by
  induction ds generalizing t D with
  | nil => simpa only [Tainted, or_false, Traffic.after] using ht
  | cons d ds ih =>
    obtain ⟨hadmits, hruns⟩ := hruns
    simpa only [Tainted, or_assoc, Traffic.after] using ih (ht.act hadmits) hruns

end Sound

end Traffic

end QuorumPool
