import QuorumPool.Proofs.Traffic
import QuorumPool.Scripted.Network

namespace QuorumPool

namespace Pool

variable {p q : Pool} {c : ConnId} {i : Nat} {id : TaskId} {broken : Bool}

section Return

/-- A sound connection joins the idle queue of its shard, if this is in service and has room. -/
theorem start_put_of_room (hwf : p.WellFormed) {lastUsed : Duration}
    (hconn : p.conns[c]? = some ⟨i, true, lastUsed⟩) (haccepts : (p.shard i).acceptsIdle = true)
    (hroom : (p.shard i).idle.length < p.config.maxIdle) :
    (p.start (.put c false)).2 = .done .returned ∧
      ((p.start (.put c false)).1.shard i).idle = (p.shard i).idle ++ [c] := by
  have hi : i < p.shards.length := hwf.conns _ (List.mem_of_getElem? hconn)
  have hdoes := Does.reclaim p i c false
  have hstart : p.start (.put c false) =
      ((p.reclaim i c false).modifyShard i fun s => { s with idle := s.idle ++ [c] },
        .done .returned) := by
    simp only [start, begin, put, hconn, acceptsIdle_reclaim, idle_reclaim, hdoes.config, haccepts,
      hroom, Bool.not_true, Bool.or_self, Bool.false_eq_true, if_false, if_true, Prod.map,
      Progress.map]
    rfl
  rw [hstart]
  refine ⟨rfl, ?_⟩
  rw [idle_enqueue (hdoes.length ▸ hi), if_pos rfl, idle_reclaim]

/-- A broken connection leaves the idle queues as they are. -/
theorem idle_start_put_of_broken {lastUsed : Duration}
    (hconn : p.conns[c]? = some ⟨i, true, lastUsed⟩) (j : Nat) :
    ((p.start (.put c true)).1.shard j).idle = (p.shard j).idle := by
  have hput : p.put c true = ((p.reclaim i c true).count i Tally.countClose, .waits ()) := by
    simp only [put, hconn, Bool.true_or, if_true]
  simp only [start, begin, hput, Prod.map, Progress.map, shard, shards_askFor]
  exact (idle_modifyShard (f := (·.count Tally.countClose)) (fun _ => rfl) j).trans
    (idle_reclaim i c true j)

/-- A return that has to wait is a task that waits for the connection to be closed. -/
theorem task?_start_put (hwf : p.WellFormed) (hstart : (p.start (.put c broken)).2 = .waits id) :
    (p.start (.put c broken)).1.task? id = some (.put c) := by
  obtain ⟨_, hbegin, htask⟩ := exists_task_of_start hwf hstart
  obtain ⟨_, -, rfl⟩ := Progress.map_eq_waits.mp hbegin
  exact htask

/-- A return with nobody else around that has to wait goes through with the factory's reply. -/
theorem putAlone_of_waits {σ : Type} (serve : Service σ) (s : σ) (hwf : p.WellFormed)
    (hstart : (p.start (.put c broken)).2 = .waits id)
    (hreply : (serve s (.close (.own c))).2 = .ok ()) :
    p.putAlone serve s c broken = ((serve s (.close (.own c))).1,
      ((p.start (.put c broken)).1.resume id (.ok ())).1, .ok ()) := by
  have htask := task?_start_put hwf hstart
  rcases hq : p.start (.put c broken) with ⟨q, w⟩
  rw [hq] at htask hstart
  dsimp only at htask hstart
  subst hstart
  obtain ⟨fuel, hfuel⟩ : ∃ fuel, q.effort = fuel + 1 := ⟨_, rfl⟩
  have hcall : q.call? id = some (.close (.own c)) := by simp [call?, htask, Task.call?]
  have hresume : q.resume id (.ok ()) = ((q.resume id (.ok ())).1, some .returned) := by
    simp only [resume, htask, advance, answerPut]
  rcases hserved : serve s (.close (.own c)) with ⟨s', reply⟩
  rw [hserved] at hreply
  dsimp only at hreply
  subst hreply
  simp only [putAlone, perform, hq, hfuel, carry, hcall, hserved]
  rw [hresume]

theorem putAlone_of_done {σ : Type} (serve : Service σ) (s : σ)
    (hstart : (p.start (.put c broken)).2 = .done .returned) :
    p.putAlone serve s c broken = (s, (p.start (.put c broken)).1, .ok ()) := by
  rcases hq : p.start (.put c broken) with ⟨q, w⟩
  rw [hq] at hstart
  dsimp only at hstart
  subst hstart
  simp only [putAlone, perform, hq]

end Return

end Pool

variable {C : Client}

namespace RedisPool

variable {rp : RedisPool C} {s : Scene C} {name : String} {c : ConnId} {r : Reach C} {p : Pool}
  {result : Except PoolError Unit}

/-- The release of a connection is a return of it, as broken if it is marked, and a report. -/
theorem release_eq
    (hput : rp.pool.putAlone Reach.serve (rp.reach s.network) c (rp.link c).broken = (r, p, result))
    (name : String) : ∃ log, rp.release s name c = ({ network := r.network, log },
      { rp with pool := p.takeJournal.1, links := r.links, probe := r.probe },
      result.mapError .pool) := by
  have hnetwork : (if (rp.link c).broken then
      s.note (.releasingBroken name (rp.link c).address) else s).network = s.network := by
    split <;> rfl
  simp only [release, hnetwork, hput]
  exact ⟨_, rfl⟩

/-- A pool that comes into being has the dialer that it was given and no connections, and its journal
was handed over. -/
theorem exists_of_create {s' : Scene C} {addresses : List String} {dialer : Dialer}
    {config : Config} (hcreate : create s name addresses dialer config = (s', .ok rp)) :
    ∃ p, Pool.create config addresses .zero = .ok p ∧
      rp = { name, dialer, pool := { p with journal := [] } } := by
  unfold create at hcreate
  split at hcreate
  · cases hcreate
  · rename_i p hpool
    exact ⟨p, hpool, (Except.ok.inj (Prod.mk.inj hcreate).2).symm⟩

end RedisPool

namespace Traffic

variable {t u : Traffic C} {c : ConnId} {d : Dealing C} {ds es : List (Dealing C)}

/-- What becomes of a lent connection with its release, when it is in doubt. -/
structure Discards (t : Traffic C) (c : ConnId) : Prop where
  /-- It has not been closed before. -/
  unclosed : t.pool.closeCalls c = 0
  /-- The release waits for the connection to be closed. -/
  asks : ∃ id, (t.pool.start (.put c (t.link c).broken)).2 = .waits id ∧
    (t.act (.release c)).pool.call? id = some (.close (.own c))
  /-- From then on it is closed, and not closed again. -/
  closed : ∀ ds, (t.act (.release c)).Runs ds →
    ((t.act (.release c)).after ds).pool.At c .closed
  /-- With nobody else around, the release goes through and has the connection given up. -/
  alone : ∀ log name, ∃ s rp, t.redis.release ⟨t.network, log⟩ name c = (s, rp, .ok ()) ∧
    (rp.link c).closed = true ∧ rp.pool.isLent c = false ∧
    ∀ i, (rp.pool.shard i).idle = (t.pool.shard i).idle

/-- What becomes of a lent connection with its release, when it is sound. -/
structure Shelves (t : Traffic C) (c : ConnId) : Prop where
  /-- It is returned as a sound one. -/
  sound : (t.link c).broken = false
  /-- It joins the idle queue of its shard, if this is in service and has room. -/
  idle : ∀ i, t.pool.home c = some i → (t.pool.shard i).available = true →
    (t.pool.shard i).closed = false → (t.pool.shard i).idle.length < t.pool.config.maxIdle →
    (t.pool.start (.put c (t.link c).broken)).2 = .done .returned ∧
    ((t.act (.release c)).pool.shard i).idle = (t.pool.shard i).idle ++ [c] ∧
    (t.act (.release c)).pool.At c .idle ∧
    ∀ log name, ∃ s rp, t.redis.release ⟨t.network, log⟩ name c = (s, rp, .ok ()) ∧
      s.network = t.network ∧ rp.links = t.redis.links ∧
      (rp.pool.shard i).idle = (t.pool.shard i).idle ++ [c]

namespace Sound

variable {D : ConnId → Prop}

/-- A connection in doubt is not lent again. -/
theorem lends_ne (ht : t.Sound D) (hadmits : t.Admits d) (hdoubted : D c) :
    t.lends? d ≠ some c := by
  intro hlends
  cases d with
  | act a =>
    have hput := (isPut_answer t a).trans hadmits.2
    have hact := Pool.lends_act ht.wellFormed ht.conserved hput
    obtain ⟨-, hconserved, hcalls⟩ := ht.act_pool ((admits_answer t a).mpr hadmits.1)
    have hlent : (t.pool.act (t.answer a).2).isLent c = true := by
      rw [hact.isLent, show t.pool.lends? (t.answer a).2 = some c from hlends]
      simp
    have hopen := (hconserved.lent hlent).2.2.2
    have hbefore : t.pool.closeCalls c = 0 := Nat.eq_zero_of_le_zero (hopen ▸ hcalls c)
    have hheld := ht.held c hdoubted hbefore
    rw [hact.fresh c hlends] at hheld
    cases hheld
  | _ => cases hlends

/-- What the pool has asked to be closed it has asked for ever after. -/
theorem closeCalls_le_act (ht : t.Sound D) (hadmits : t.Admits d) (c : ConnId) :
    t.pool.closeCalls c ≤ (t.act d).pool.closeCalls c := by
  cases d with
  | act a => exact (ht.act_pool ((admits_answer t a).mpr hadmits.1)).2.2 c
  | release e =>
    have hput : t.pool.Admits (.start (.put e (t.link e).broken)) := trivial
    exact (ht.act_pool hput).2.2 c
  | query | others => exact Nat.le_refl _

theorem closeCalls_le_after (ht : t.Sound D) (hruns : t.Runs ds) (c : ConnId) :
    t.pool.closeCalls c ≤ (t.after ds).pool.closeCalls c := by
  induction ds generalizing t D with
  | nil => exact Nat.le_refl _
  | cons d ds ih =>
    obtain ⟨hadmits, hruns⟩ := hruns
    exact Nat.le_trans (ht.closeCalls_le_act hadmits c) (ih (ht.act hadmits) hruns)

theorem release_alone_of_doubt (ht : t.Sound D) (hlent : t.pool.isLent c = true) (hdoubted : D c)
    (log : List Event) (name : String) :
    ∃ s rp, t.redis.release ⟨t.network, log⟩ name c = (s, rp, .ok ()) ∧
      (rp.link c).closed = true ∧ rp.pool.isLent c = false ∧
      ∀ i, (rp.pool.shard i).idle = (t.pool.shard i).idle := by
  obtain ⟨i, lastUsed, hconn⟩ := Pool.exists_conn_of_isLent hlent
  obtain ⟨⟨id, hwaits⟩, -⟩ := ht.closed_of_release hlent hdoubted
  have hbroken : (t.link c).broken = true := (ht.marked_of_lent hlent).mpr hdoubted
  have htask := Pool.task?_start_put ht.wellFormed hwaits
  have hput := Pool.putAlone_of_waits RedisPool.Reach.serve (t.redis.reach t.network) ht.wellFormed
    hwaits rfl
  obtain ⟨log', hrelease⟩ := RedisPool.release_eq (s := ⟨t.network, log⟩) hput name
  refine ⟨_, _, hrelease, ?_, ?_, fun j => ?_⟩
  · exact closed_set_close (ht.length ▸ isLent_lt hlent) t.network
  · have hconns := (Pool.conns_resume htask (.ok ())).trans
      (Pool.conns_advance (fun g hg => by cases hg) (.ok ()))
    have hback := (Pool.takesBack_of_lent hlent (t.link c).broken).2 c
    rw [Pool.isLent, ← hconns, ← Pool.isLent] at hback
    exact hback.trans (by simp)
  · have hshards := Pool.shards_resume htask (.ok ())
    have hidle := Pool.idle_start_put_of_broken hconn j
    rw [← hbroken] at hidle
    exact (congrArg (fun shards => (List.getD shards j default).idle) hshards).trans hidle

/-- With nobody else around, the release of a sound connection goes through at once, if its shard is
in service and has room. -/
theorem release_alone_of_room
    (hdone : (t.pool.start (.put c (t.link c).broken)).2 = .done .returned) (log : List Event)
    (name : String) : ∃ s rp, t.redis.release ⟨t.network, log⟩ name c = (s, rp, .ok ()) ∧
      s.network = t.network ∧ rp.links = t.redis.links ∧
      ∀ i, rp.pool.shard i = (t.act (.release c)).pool.shard i := by
  have hput := Pool.putAlone_of_done RedisPool.Reach.serve (t.redis.reach t.network) hdone
  obtain ⟨log', hrelease⟩ := RedisPool.release_eq (s := ⟨t.network, log⟩) hput name
  exact ⟨_, _, hrelease, rfl, rfl, fun i => rfl⟩

theorem discards (ht : t.Sound D) (hlent : t.pool.isLent c = true) (hdoubted : D c) :
    t.Discards c := by
  obtain ⟨⟨id, hwaits⟩, hclosed⟩ := ht.closed_of_release hlent hdoubted
  have htask := Pool.task?_start_put ht.wellFormed hwaits
  refine ⟨(ht.conserved.lent hlent).2.2.2, ⟨id, hwaits, ?_⟩, fun ds hruns => ?_,
    ht.release_alone_of_doubt hlent hdoubted⟩
  · have hcall : (t.pool.start (.put c (t.link c).broken)).1.call? id = some (.close (.own c)) := by
      simp [Pool.call?, htask, Task.call?]
    exact hcall
  · have hgiven : (t.act (.release c)).pool.closeCalls c = 1 := (hclosed [] trivial).2.2.2
    have hcalls := (ht.release c).closeCalls_le_after hruns c
    rw [hgiven] at hcalls
    exact ((ht.release c).after hruns).conserved.closed hcalls

theorem shelves (ht : t.Sound D) (hlent : t.pool.isLent c = true) (hsound : ¬D c) :
    t.Shelves c := by
  have hbroken : (t.link c).broken = false := by
    rw [← Bool.not_eq_true, ht.marked_of_lent hlent]
    exact hsound
  obtain ⟨j, lastUsed, hconn⟩ := Pool.exists_conn_of_isLent hlent
  refine ⟨hbroken, fun i hhome havailable hopen hroom => ?_⟩
  obtain rfl : j = i := by simpa [Pool.home, hconn] using hhome
  have haccepts : (t.pool.shard j).acceptsIdle = true := by
    rw [Shard.acceptsIdle, havailable, hopen]
    rfl
  obtain ⟨hdone, hqueue⟩ := Pool.start_put_of_room ht.wellFormed hconn haccepts hroom
  have hidle : ((t.act (.release c)).pool.shard j).idle = (t.pool.shard j).idle ++ [c] := by
    rw [Traffic.act, hbroken]
    exact hqueue
  have hmem : c ∈ ((t.act (.release c)).pool.shard j).idle := by simp [hidle]
  rw [← hbroken] at hdone
  refine ⟨hdone, hidle, (ht.release c).conserved.idle_of_mem hmem, fun log name => ?_⟩
  obtain ⟨s, rp, hrelease, hnetwork, hlinks, hshards⟩ := release_alone_of_room hdone log name
  exact ⟨s, rp, hrelease, hnetwork, hlinks, by rw [hshards, hidle]⟩

/-- A fresh pool, none of whose connections is in doubt as there are none. -/
theorem of_create {s s' : Scene C} {name : String} {addresses : List String} {dialer : Dialer}
    {config : Config}
    (hcreate : RedisPool.create s name addresses dialer config = (s', .ok t.redis)) :
    t.Sound fun _ => False := by
  obtain ⟨p, hpool, hredis⟩ := RedisPool.exists_of_create hcreate
  have hwf := Pool.WellFormed.of_create hpool
  have hconserved := Pool.conserved_of_create hpool
  have hp : t.pool = { p with journal := [] } := congrArg RedisPool.pool hredis
  have hlinks : t.redis.links = [] := congrArg RedisPool.links hredis
  obtain ⟨_, _, rfl⟩ := Pool.eq_of_create hpool
  refine ⟨?_, ?_, by rw [hlinks, hp]; rfl, ?_, fun c hdoubted => hdoubted.elim⟩
  · rw [hp]
    exact hwf.congr rfl rfl rfl rfl rfl rfl
  · rw [hp]
    exact hconserved.congr rfl (fun _ => rfl) (fun _ => rfl) (fun _ => rfl) fun _ hx => hx
  · intro c hc
    rw [hp] at hc
    exact absurd hc (Nat.not_lt_zero c)

end Sound

/-- In every run of a pool of Redis connections, and whatever its client and servers do, a connection
that some query has left in doubt is closed once at its release and not lent by any later get. Any
other is returned as sound, and joins the idle queue of its shard if this is in service and has
room. -/
theorem broken_never_reused {s s' : Scene C} {name : String} {addresses : List String}
    {dialer : Dialer} {config : Config}
    (hcreate : RedisPool.create s name addresses dialer config = (s', .ok t.redis))
    (hruns : t.Runs ds) (c : ConnId) :
    (t.Tainted c ds →
      ((t.after ds).pool.isLent c = true → (t.after ds).Discards c) ∧
      ∀ es d, (t.after ds).Runs (es ++ [d]) → ((t.after ds).after es).lends? d ≠ some c) ∧
    (¬t.Tainted c ds → (t.after ds).pool.isLent c = true → (t.after ds).Shelves c) := by
  have hsound := (Sound.of_create hcreate).after hruns
  refine ⟨fun htainted => ⟨fun hlent => hsound.discards hlent (.inr htainted), ?_⟩,
    fun hclean hlent => hsound.shelves hlent fun hdoubted => hdoubted.elim id hclean⟩
  intro es d hmore
  obtain ⟨hes, hd, -⟩ := runs_append.mp hmore
  exact (hsound.after hes).lends_ne hd (.inl (.inr htainted))

/-- A network with one server, which answers a first GET with an error and says nothing to others. -/
def reticentNetwork : Network :=
  { servers := [("a", 1, { script := [("GET", [.reply (.error "ERR no"), .silence])] })] }

/-- A pool of one shard on that network. -/
def reticent : Traffic scripted where
  network := reticentNetwork
  redis :=
    { name := "main"
      dialer := {}
      pool := { config := {}, shards := [{ address := "a:1" }], numAvailable := 1 } }

/-- A connection is dialed for a get, and a command is run on it. -/
def firstLoan : List (Dealing scripted) :=
  [.act (.start .get), .act (.resume 0 (.error .poolExhausted)), .query 0 ["GET", "k"] scripted.text]

/-- The connection is released and lent again, and the command is run another time. -/
def secondLoan : List (Dealing scripted) :=
  [.release 0, .act (.start .get), .query 0 ["GET", "k"] scripted.text]

/-- The connection waits for another get after the error, and is closed after the silence. -/
theorem broken_never_reused_reticent :
    (reticent.Runs firstLoan ∧ ¬reticent.Tainted 0 firstLoan ∧
      (reticent.after firstLoan).pool.isLent 0 = true ∧ (reticent.after firstLoan).Shelves 0) ∧
    reticent.Runs (firstLoan ++ secondLoan) ∧ reticent.Tainted 0 (firstLoan ++ secondLoan) ∧
      (reticent.after (firstLoan ++ secondLoan)).pool.isLent 0 = true ∧
      (reticent.after (firstLoan ++ secondLoan)).Discards 0 := by
  obtain ⟨s, hcreate⟩ : ∃ s, RedisPool.create (C := scripted) { network := reticentNetwork } "main"
      ["a:1"] {} {} = (s, .ok reticent.redis) := ⟨_, rfl⟩
  have hfirst : reticent.Runs firstLoan := ⟨⟨trivial, rfl⟩, ⟨.inl rfl, rfl⟩, rfl, trivial⟩
  have hsecond : (reticent.after firstLoan).Runs secondLoan :=
    ⟨trivial, ⟨trivial, rfl⟩, rfl, trivial⟩
  have hclean : ¬reticent.Tainted 0 firstLoan := by
    rintro (h | h | ⟨-, h⟩ | h)
    · exact h
    · exact h
    · obtain ⟨e, he, hdoubt⟩ := h
      obtain rfl := Except.error.inj he
      exact Bool.false_ne_true (RedisError.isFatal_iff.mpr hdoubt)
    · exact h
  have htainted : reticent.Tainted 0 (firstLoan ++ secondLoan) :=
    .inr (.inr (.inr (.inr (.inr (.inl ⟨rfl, _, rfl, trivial⟩)))))
  have hruns := runs_append.mpr ⟨hfirst, hsecond⟩
  exact ⟨⟨hfirst, hclean, rfl, (broken_never_reused hcreate hfirst 0).2 hclean rfl⟩, hruns,
    htainted, rfl, ((broken_never_reused hcreate hruns 0).1 htainted).1 rfl⟩

end Traffic

end QuorumPool
