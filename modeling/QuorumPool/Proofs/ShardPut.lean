import QuorumPool.Proofs.ShardGet
import QuorumPool.Proofs.Slots

namespace QuorumPool

/-- The shard when the loan of one of its connections is over. -/
def Shard.reclaimed (s : Shard) (broken : Bool) : Shard :=
  { s with
    active := s.active - 1
    fails := if broken then s.fails + 1 else 0
    tally :=
      { s.tally with
        puts := s.tally.puts + 1
        broken := s.tally.broken + if broken then 1 else 0 } }

namespace Pool

/-- The return of a connection that is being closed. -/
def returning (c : ConnId) : Activity Unit (Except PoolError Unit) where
  call _ _ := .close (.own c)
  resume p _ reply := (p, .done reply)
  now_resume _ _ _ := rfl

/-- The pool when the loan of connection `c` of shard `i` is over, with the shard left as `s`. A
failure that brings the shard to the threshold is signalled. -/
def reclaimed (p : Pool) (i : Nat) (c : ConnId) (broken : Bool) (s : Shard) : Pool :=
  { p with
    shards := p.shards.set i s
    conns := p.conns.modify c fun conn => { conn with borrowed := false, lastUsed := p.now }
    suspects := if broken then p.suspectsAfter i ((p.shard i).fails + 1) else p.suspects }

/-- Whether shard `i` queues a connection that comes back. -/
def Queues (p : Pool) (i : Nat) (broken : Bool) : Prop :=
  broken = false ∧ (p.shard i).available = true ∧ (p.shard i).closed = false ∧
    (p.shard i).idle.length < p.config.maxIdle

/-- How the return of connection `c` of shard `i` goes on once the loan is over: with these exchanges,
to this pool and this result. -/
inductive Disposes (p : Pool) (i : Nat) (c : ConnId) (broken : Bool) :
    List Exchange → Pool → Except PoolError Unit → Prop
  | queued {s} (hs : s = (p.shard i).reclaimed broken) (hqueues : p.Queues i broken) :
      Disposes p i c broken [] (p.reclaimed i c broken { s with idle := s.idle ++ [c] }) (.ok ())
  | refused {s time reply} (hs : s = (p.shard i).reclaimed broken)
      (hout : broken = true ∨ s.available = false ∨ s.closed = true) (htime : p.now ≤ time) :
      Disposes p i c broken [⟨.close (.own c), time, reply⟩]
        ((p.reclaimed i c broken
          { s with tally := { s.tally with closes := s.tally.closes + 1 } }).setTime time)
        reply
  | evicted {s time reply} (hs : s = (p.shard i).reclaimed broken) (hsound : broken = false)
      (havailable : s.available = true) (hopen : s.closed = false)
      (hfull : p.config.maxIdle ≤ s.idle.length) (htime : p.now ≤ time) :
      Disposes p i c broken [⟨.close (.own c), time, reply⟩]
        ((p.reclaimed i c broken
          { s with
            tally :=
              { s.tally with
                evictions := s.tally.evictions + 1
                closes := s.tally.closes + 1 } }).setTime time)
        reply

variable {p q : Pool} {i : Nat} {c : ConnId} {broken : Bool} {lastUsed : Duration}
  {xs ys : List Exchange} {result : Except PoolError Unit}

/-- The loan of a connection is over in one step. -/
theorem exists_reclaim_eq (hi : i < p.shards.length) (c : ConnId) (broken : Bool) :
    ∃ journal, p.reclaim i c broken =
      { p.reclaimed i c broken ((p.shard i).reclaimed broken) with journal } := by
  let r := p.modifyConn c fun conn => { conn with borrowed := false, lastUsed := p.now }
  have hr : r = r.recast i (p.shard i) p.now p.journal := (recast_self (p := r) hi).symm
  have hreclaim : p.reclaim i c broken =
      ((r.recordOutcome i broken).count i (·.countPut broken)).modifyShard i
        Shard.releaseSlot := rfl
  cases broken with
  | false =>
    have hrecord : r.recordOutcome i false =
        r.recast i { p.shard i with fails := 0 } p.now p.journal :=
      (congrArg (·.recordOutcome i false) hr).trans (modifyShard_recast _)
    rw [hreclaim, hrecord, count_recast, modifyShard_recast]
    exact ⟨p.journal, rfl⟩
  | true =>
    obtain ⟨journal, hrecord⟩ := exists_recordFailure_recast (p := r) (i := i) (p.shard i) p.now
      p.journal hi
    rw [← hr] at hrecord
    rw [hreclaim, hrecord, count_recast, modifyShard_recast]
    exact ⟨journal, rfl⟩

/-- A connection that the pool has not lent is not taken back, and nothing changes. -/
theorem put_of_not_borrowed {conn : Conn} (hconn : p.conns[c]? = some conn)
    (hfree : conn.borrowed = false) : p.put c broken = (p, .done (.error .invalidReturn)) := by
  obtain ⟨_, borrowed, _⟩ := conn
  subst hfree
  simp only [put, hconn]

/-- A lent connection joins the queue, or it is closed. -/
theorem exists_put_eq {conn : Conn} (hi : conn.shard < p.shards.length)
    (hconn : p.conns[c]? = some conn) (hlent : conn.borrowed = true) (broken : Bool) :
    ∃ journal, p.put c broken =
      let s := (p.shard conn.shard).reclaimed broken
      let settled := p.reclaimed conn.shard c broken
      if broken || !s.acceptsIdle then
        ({ settled (s.count Tally.countClose) with journal }, .waits ())
      else if s.idle.length < p.config.maxIdle then
        ({ settled { s with idle := s.idle ++ [c] } with journal }, .done (.ok ()))
      else
        ({ settled ((s.count Tally.countEviction).count Tally.countClose) with
          journal := .event (.idleQueueFull s.address) :: journal }, .waits ()) := by
  obtain ⟨i, borrowed, _⟩ := conn
  subst hlent
  obtain ⟨journal, hreclaim⟩ := exists_reclaim_eq hi c broken
  let base : Pool := p.reclaimed i c broken (p.shard i)
  have hbase (s : Shard) (journal : List Entry) :
      { p.reclaimed i c broken s with journal } = base.recast i s p.now journal := by
    simp [base, recast, reclaimed]
  have hlt : i < base.shards.length := by
    simpa [base, reclaimed] using hi
  refine ⟨journal, ?_⟩
  rw [hbase] at hreclaim
  simp only [hbase, put, hconn, hreclaim, shard_recast hlt, modifyShard_recast, count_recast,
    note_recast]
  rfl

/-- What a return that the pool takes does up to its end. -/
theorem disposes_of_ends {conn : Conn} (hi : conn.shard < p.shards.length)
    (hconn : p.conns[c]? = some conn) (hlent : conn.borrowed = true)
    (hends : (returning c).Ends (p.put c broken) xs q result) :
    p.Disposes conn.shard c broken xs { q with journal := p.journal } result := by
  obtain ⟨journal, hput⟩ := exists_put_eq hi hconn hlent broken
  rw [hput] at hends
  dsimp only at hends
  split at hends
  · rename_i hout
    obtain ⟨⟨call, time, reply⟩, ys, rfl, rfl, htime, hends⟩ := Activity.ends_waits_iff.mp hends
    obtain ⟨rfl, rfl, rfl⟩ := Activity.ends_done_iff.mp hends
    refine .refused rfl ?_ htime
    simpa [Shard.acceptsIdle, Classical.or_iff_not_imp_left] using hout
  rename_i haccepts
  obtain ⟨rfl, havailable, hopen⟩ : broken = false ∧ (p.shard conn.shard).available = true ∧
      (p.shard conn.shard).closed = false := by
    simpa [Shard.acceptsIdle, Shard.reclaimed] using haccepts
  split at hends
  · rename_i hroom
    obtain ⟨rfl, rfl, rfl⟩ := Activity.ends_done_iff.mp hends
    exact .queued rfl ⟨rfl, havailable, hopen, hroom⟩
  · rename_i hfull
    obtain ⟨⟨call, time, reply⟩, ys, rfl, rfl, htime, hends⟩ := Activity.ends_waits_iff.mp hends
    obtain ⟨rfl, rfl, rfl⟩ := Activity.ends_done_iff.mp hends
    exact .evicted rfl rfl havailable hopen (Nat.le_of_not_lt hfull) htime

/-- A return comes to its end: it closes one connection at most. -/
theorem halts_put (p : Pool) (c : ConnId) (broken : Bool) :
    (returning c).Halts (p.put c broken) := by
  have hclosing (q : Pool) : (returning c).Halts (q, .waits ()) :=
    .waits fun _ _ _ => .done _ _
  unfold put
  dsimp only
  split
  · split
    · exact hclosing _
    split
    · exact .done _ _
    · exact hclosing _
  · exact .done _ _

private theorem now_put (p : Pool) (c : ConnId) (broken : Bool) :
    (p.put c broken).1.now = p.now := by
  have hreclaim (i : Nat) : (p.reclaim i c broken).now = p.now := now_recordOutcome _ i broken
  unfold put
  dsimp only
  split
  · split
    · exact hreclaim _
    split <;> exact hreclaim _
  · rfl

/-- What the factory says to the close of a connection that was returned is the result, and it is
nothing to the pool. -/
theorem ends_put_alike (hends : (returning c).Ends (p.put c broken) xs q result)
    (halike : List.Forall₂ Exchange.AlikeButClose xs ys) :
    ∃ result', (returning c).Ends (p.put c broken) ys q result' := by
  generalize p.put c broken = w at hends
  cases hends with
  | done q result =>
    cases halike
    exact ⟨result, .done q result⟩
  | @waits r _ x _ _ _ hcall htime hrest =>
    obtain ⟨rfl, rfl, rfl⟩ := Activity.ends_done_iff.mp hrest
    obtain ⟨y, _, hxy, hnil, rfl⟩ := List.forall₂_cons_left_iff.mp halike
    cases hnil
    refine ⟨y.reply, .waits (hxy.call.trans hcall) (hxy.time ▸ htime) ?_⟩
    rw [hxy.time]
    exact .done _ _

private theorem Disposes.eq_nil_iff (hdisposes : p.Disposes i c broken xs q result) :
    xs = [] ↔ p.Queues i broken := by
  cases hdisposes with
  | queued _ hqueues => exact iff_of_true rfl hqueues
  | refused hs hout =>
    refine iff_of_false (List.cons_ne_nil _ _) fun ⟨hsound, havailable, hopen, _⟩ => ?_
    subst hs
    simp [Shard.reclaimed, hsound, havailable, hopen] at hout
  | evicted hs _ _ _ hfull =>
    refine iff_of_false (List.cons_ne_nil _ _) fun ⟨_, _, _, hroom⟩ => ?_
    subst hs
    exact absurd hroom (Nat.not_lt_of_le hfull)

/-- What a return of connection `c`, which the pool knows as `conn`, does with nobody else
around. -/
structure Returns (p : Pool) (c : ConnId) (conn : Conn) (broken : Bool) : Prop where
  /-- A connection that is not lent is refused at once, and the pool is what it was. -/
  refused : conn.borrowed = false → p.put c broken = (p, .done (.error .invalidReturn))
  /-- A connection that is lent has a slot to give back. -/
  slot : conn.borrowed = true → 0 < (p.shard conn.shard).active
  /-- The return comes to an end on every factory. -/
  halts : ∀ f : Factory, ∃ xs q result,
    (returning c).Ends (p.put c broken) xs q result ∧ f.Makes [] p.now xs
  /-- The loan is over, and the connection is queued or closed. -/
  disposes : conn.borrowed = true → ∀ xs q result,
    (returning c).Ends (p.put c broken) xs q result →
    p.Disposes conn.shard c broken xs { q with journal := p.journal } result
  /-- The factory is left alone if and only if the connection is queued. -/
  queues : conn.borrowed = true → ∀ xs q result,
    (returning c).Ends (p.put c broken) xs q result → (xs = [] ↔ p.Queues conn.shard broken)
  /-- What the factory says to the close is nothing to the pool. -/
  closes : ∀ xs ys q result, (returning c).Ends (p.put c broken) xs q result →
    List.Forall₂ Exchange.AlikeButClose xs ys →
    ∃ result', (returning c).Ends (p.put c broken) ys q result'

theorem Slotted.returns {conn : Conn} (hp : p.Slotted .free p.held) (hwf : p.WellFormed)
    (hconn : p.conns[c]? = some conn) (broken : Bool) : p.Returns c conn broken := by
  have hi : conn.shard < p.shards.length := hwf.conns conn (List.mem_of_getElem? hconn)
  have hdisposes (hlent : conn.borrowed = true) {xs q result}
      (hends : (returning c).Ends (p.put c broken) xs q result) :
      p.Disposes conn.shard c broken xs { q with journal := p.journal } result :=
    disposes_of_ends hi hconn hlent hends
  refine ⟨put_of_not_borrowed hconn, fun hlent => ?_, fun f => ?_,
    fun hlent _ _ _ hends => hdisposes hlent hends,
    fun hlent _ _ _ hends => (hdisposes hlent hends).eq_nil_iff,
    fun _ _ _ _ hends halike => ends_put_alike hends halike⟩
  · rw [hp.active_eq hi]
    exact Nat.add_pos_left (lentOf_pos hconn hlent) _
  · obtain ⟨xs, q, result, hends, hmakes⟩ := (halts_put p c broken).exists_ends f []
    rw [now_put] at hmakes
    exact ⟨xs, q, result, hends, hmakes⟩

/-- After every run, a return with nobody else around is applied as a whole or not at all. One of a
connection that is not lent changes nothing. Any other ends the loan, and then the connection joins
its shard's queue without a word to the factory, or it is closed and the caller learns what came of
that. An error other than the refusal leaves the pool as a success does. -/
theorem put_spec {config : Config} {addresses : List String} {now : Duration}
    (hcreate : create config addresses now = .ok p) {as : List Action} (hruns : p.Runs as)
    {conn : Conn} (hconn : (p.after as).conns[c]? = some conn) (broken : Bool) :
    (p.after as).Returns c conn broken :=
  (slotted_after hcreate hruns).returns ((WellFormed.of_create hcreate).after as) hconn broken

/-- A shard that keeps one idle connection. -/
def roomForOne : Pool where
  config := { maxIdle := 1 }
  shards := [{ address := "a:1" }]
  numAvailable := 1
  journal := [.event (.poolStarted 1 5)]

/-- Two connections are lent, and the first comes back. -/
def lentTwice : List Action :=
  [.start .get, .resume 0 (.ok ()), .start .get, .resume 1 (.ok ()), .start (.put 0 false)]

/-- Of two connections that come back to a queue with room for one, the second is closed. The close
fails, and its return has been booked all the same. -/
theorem put_spec_two :
    create { maxIdle := 1 } ["a:1"] .zero = .ok roomForOne ∧ roomForOne.Runs lentTwice ∧
      (roomForOne.after lentTwice).conns[1]? = some ⟨0, true, .zero⟩ ∧
      ∃ xs q, (returning 1).Ends ((roomForOne.after lentTwice).put 1 false) xs q
          (.error (.backend "gone")) ∧
        ¬(roomForOne.after lentTwice).Queues 0 false ∧
        (q.shard 0).idle = [0] ∧ (q.shard 0).active = 0 := by
  have hcreate : create { maxIdle := 1 } ["a:1"] .zero = .ok roomForOne := rfl
  have hruns : roomForOne.Runs lentTwice := by decide
  have hconn : (roomForOne.after lentTwice).conns[1]? = some ⟨0, true, .zero⟩ := by decide
  have hput : ((roomForOne.after lentTwice).put 1 false).2 = .waits () := rfl
  have hends : (returning 1).Ends ((roomForOne.after lentTwice).put 1 false)
      [⟨.close (.own 1), ⟨3⟩, .error (.backend "gone")⟩]
      (((roomForOne.after lentTwice).put 1 false).1.setTime ⟨3⟩) (.error (.backend "gone")) :=
    .of_waits hput rfl (by decide) (.of_done rfl)
  have hqueues := (put_spec hcreate hruns hconn false).queues rfl _ _ _ hends
  exact ⟨hcreate, hruns, hconn, _, _, hends, mt hqueues.mpr (List.cons_ne_nil _ _), by decide,
    by decide⟩

end Pool

end QuorumPool
