import QuorumPool.Proofs.Drains
import QuorumPool.Proofs.QueueOrder
import QuorumPool.Proofs.Tour

namespace QuorumPool

/-- The idle or returned connection that the factory is to close in the exchange. -/
def Exchange.closed? (x : Exchange) : Option ConnId :=
  match x.call with
  | .close (.own c) => some c
  | _ => none

/-- Whether no close takes any time, when the first of the calls is made at the time `now`. -/
def ClosesAtOnce (now : Duration) : List Exchange → Prop
  | [] => True
  | x :: xs => ((∃ t, x.call = .close t) → x.time = now) ∧ ClosesAtOnce x.time xs

/-- A factory that takes no time over its closes is seen to take none. -/
theorem Factory.Makes.closesAtOnce {f : Factory} (hf : ∀ past t, (f past (.close t)).1 = .zero)
    {past xs : List Exchange} {now : Duration} (hmakes : f.Makes past now xs) :
    ClosesAtOnce now xs := by
  induction xs generalizing past now with
  | nil => trivial
  | cons x xs ih =>
    obtain ⟨htime, -, hrest⟩ := hmakes
    refine ⟨fun ⟨t, hclose⟩ => ?_, ih hrest⟩
    rw [htime, hclose, hf]
    rfl

namespace Pool

variable {p q : Pool} {i : Nat} {s : Shard} {now later : Duration} {c d : ConnId}
  {xs ys : List Exchange} {result : Except PoolError ConnId} {cs : List ConnId}

/-- A connection that was used no later than one that is too old is too old itself. -/
theorem Outdated.of_usedBefore (hcd : p.UsedBefore c d) (hold : p.Outdated now d) :
    p.Outdated now c := by
  obtain ⟨s, t, hs, ht, hst⟩ := hcd
  obtain ⟨timeout, conn, htimeout, hconn, hlt⟩ := hold
  obtain ⟨conn', hconn', rfl⟩ := Option.map_eq_some_iff.mp hs
  have ht : conn.lastUsed = t := by simpa [lastUsed?, hconn] using ht
  refine ⟨timeout, conn', htimeout, hconn', ?_⟩
  rw [Duration.lt_iff, Duration.nanos_sub] at hlt ⊢
  rw [Duration.le_iff] at hst
  rw [ht] at hlt
  omega

/-- From a connection that is not too old on, none in the queue is. -/
theorem not_outdated_of_sorted {rest : List ConnId} (hsorted : (c :: rest).Pairwise p.UsedBefore)
    (hfresh : ¬p.Outdated now c) : ∀ d ∈ c :: rest, ¬p.Outdated now d := by
  intro d hd
  obtain rfl | hd := List.mem_cons.mp hd
  · exact hfresh
  · exact mt (.of_usedBefore ((List.pairwise_cons.mp hsorted).1 d hd)) hfresh

/-- Where nothing is validated and no close takes time, all that is turned down is too old from the
start. -/
theorem Rejects.of_closesAtOnce {rejected : List Rejection} (hrejects : p.Rejects now rejected later)
    (htest : p.config.testOnBorrow = false)
    (hcloses : ClosesAtOnce now (rejected.flatMap Rejection.exchanges ++ ys)) :
    later = now ∧ (∀ c ∈ rejected.map Rejection.conn, p.Outdated now c) ∧
      (rejected.flatMap Rejection.exchanges).filterMap Exchange.closed? =
        rejected.map Rejection.conn := by
  induction hrejects with
  | nil now => exact ⟨rfl, by simp, rfl⟩
  | @outdated now r rs later hold hfailure _ _ ih =>
    have hexchanges : r.exchanges = [⟨.close (.own r.conn), r.closed, r.reply⟩] := by
      rw [Rejection.exchanges, hfailure]
      rfl
    rw [List.flatMap_cons, hexchanges] at hcloses
    obtain ⟨hclosed, hrest⟩ := hcloses
    have hnow : r.closed = now := hclosed ⟨_, rfl⟩
    obtain ⟨hlater, houtdated, hconns⟩ := ih hrest
    rw [hnow] at hlater houtdated
    refine ⟨hlater, ?_, ?_⟩
    · simpa using ⟨hold, by simpa using houtdated⟩
    · rw [List.flatMap_cons, hexchanges, List.filterMap_append, hconns]
      rfl
  | invalid _ hvalidates => exact absurd hvalidates (by simp [htest])

/-- Lending a connection leaves the age of all what it is. -/
theorem outdated_of_lent {shards : List Shard} {c d : ConnId}
    (hold : Outdated { p with
      shards
      conns := p.conns.modify c fun conn => { conn with borrowed := true }
      now } later d) : p.Outdated later d := by
  obtain ⟨timeout, conn, htimeout, hconn, hlt⟩ := hold
  rw [List.getElem?_modify] at hconn
  obtain ⟨old, hold, rfl⟩ := Option.map_eq_some_iff.mp hconn
  refine ⟨timeout, old, htimeout, hold, ?_⟩
  split at hlt
  · exact hlt
  · exact hlt

/-- How a get at shard `i` goes that finds the connections `old` too old and `young` not. -/
structure Purges (p : Pool) (i : Nat) (old young : List ConnId) (xs : List Exchange) (q : Pool)
    (result : Except PoolError ConnId) : Prop where
  idle : (p.shard i).idle = old ++ young
  outdated : ∀ c ∈ old, p.Outdated p.now c
  not_outdated : ∀ c ∈ young, ¬p.Outdated p.now c
  /-- The connections that are too old are closed, in their order, and no others. -/
  closes : xs.filterMap Exchange.closed? = old
  /-- The first of the others is lent. -/
  lends : ∀ c rest, young = c :: rest → result = .ok c
  left : (q.shard i).idle = young.tail
  fresh : ∀ c ∈ (q.shard i).idle, ¬q.Outdated q.now c

private theorem shard_of_shards_eq_set (hi : i < p.shards.length)
    (hq : q.shards = p.shards.set i s) :
    q.shard i = s := by
  simp [shard, hq, List.getD_eq_getElem?_getD, hi]

/-- What a get at a shard comes to when it has turned down what it had to. -/
theorem Concludes.purges (hconcludes : p.Concludes i s now ys q result)
    (hi : i < p.shards.length) (hsorted : s.idle.Pairwise p.UsedBefore)
    (htest : p.config.testOnBorrow = false) :
    (∀ c ∈ s.idle, ¬p.Outdated now c) ∧ ys.filterMap Exchange.closed? = [] ∧
      (∀ c rest, s.idle = c :: rest → result = .ok c) ∧ (q.shard i).idle = s.idle.tail ∧
      ∀ c ∈ (q.shard i).idle, ¬q.Outdated q.now c := by
  cases hconcludes with
  | @fresh c rest hidle hfresh _ =>
    have hyoung := not_outdated_of_sorted (hidle ▸ hsorted) hfresh
    rw [shard_of_shards_eq_set hi rfl, hidle]
    refine ⟨hyoung, rfl, fun d _ heq => by rw [(List.cons.inj heq).1], rfl, fun d hd hold => ?_⟩
    exact hyoung d (List.mem_cons_of_mem c hd) (outdated_of_lent hold)
  | valid _ _ hvalidates => exact absurd hvalidates (by simp [htest])
  | exhausted hidle | dialed hidle | failed hidle =>
    rw [shard_of_shards_eq_set hi rfl]
    simp [hidle, Exchange.closed?]

/-- A get at an open shard, with the closes taking no time, purges its queue. -/
theorem exists_purges_of_open (hi : i < p.shards.length) (hopen : (p.shard i).closed = false)
    (hsorted : (p.shard i).idle.Pairwise p.UsedBefore) (htest : p.config.testOnBorrow = false)
    (hends : (borrowing i).Ends (p.borrow i) xs q result) (hcloses : ClosesAtOnce p.now xs) :
    ∃ old young, p.Purges i old young xs q result := by
  rw [borrow_of_open hi hopen] at hends
  obtain ⟨rejected, young, later, ys, hidle, hrejects, rfl, hconcludes⟩ := accounts_of_ends hi hends
  obtain ⟨rfl, hold, hclosed⟩ := hrejects.of_closesAtOnce htest hcloses
  have hidle : (p.shard i).idle = rejected.map Rejection.conn ++ young := hidle
  rw [hidle, List.pairwise_append] at hsorted
  obtain ⟨hyoung, hnone, hlends, hleft, hfresh⟩ := hconcludes.purges hi hsorted.2.1 htest
  refine ⟨_, young, hidle, hold, hyoung, ?_, hlends, hleft, hfresh⟩
  rw [List.filterMap_append, hclosed, hnone, List.append_nil]

/-- A get at a closed shard does nothing. -/
theorem purges_of_closed (hclosed : (p.shard i).closed = true) (hidle : (p.shard i).idle = [])
    (hends : (borrowing i).Ends (p.borrow i) xs q result) : p.Purges i [] [] xs q result := by
  have hborrow : p.borrow i = (p, .done (.error (.shardClosed (p.shard i).address))) := by
    rw [borrow, if_pos hclosed]
  rw [hborrow] at hends
  obtain ⟨rfl, rfl, rfl⟩ := Activity.ends_done_iff.mp hends
  exact ⟨hidle, by simp, by simp, rfl, by simp, hidle, by simp [hidle]⟩

/-- The idle queue of shard `i` when the connections `cs` have come back, in this order. -/
structure InOrder (p : Pool) (i : Nat) (cs : List ConnId) : Prop where
  length_le : (p.shard i).idle.length ≤ p.config.maxIdle
  nodup : (p.shard i).idle.Nodup
  /-- The queue is in the order of the latest returns. -/
  latest : (p.shard i).idle.Sublist cs.dedup
  /-- None was used later than one behind it. -/
  sorted : (p.shard i).idle.Pairwise p.UsedBefore

/-- What comes of a get at shard `i` with nobody else around on a factory that takes no time over its
closes. -/
structure Refreshes (p : Pool) (i : Nat) : Prop where
  halts : ∀ f : Factory, (∀ past t, (f past (.close t)).1 = .zero) → ∃ xs q result,
    (borrowing i).Ends (p.borrow i) xs q result ∧ f.Makes [] p.now xs ∧ ClosesAtOnce p.now xs
  purges : ∀ xs q result, (borrowing i).Ends (p.borrow i) xs q result → ClosesAtOnce p.now xs →
    ∃ old young, p.Purges i old young xs q result

section Run

variable {config : Config} {addresses : List String} {as : List Action}

/-- A closed shard that nobody drains has nothing idle. -/
theorem idle_of_closed (hcreate : create config addresses now = .ok p)
    (hclosed : ((p.after as).shard i).closed = true)
    (hundrained : ∀ d, (p.after as).drainedBy i d = false) :
    ((p.after as).shard i).idle = [] := by
  obtain haccepts | hidle | ⟨bs, a, cs, d, rfl, -, -, -, hdrains⟩ :=
    idle_or_drainedSince (.of_create hcreate) (idle_of_create hcreate i) as
  · simp [Shard.acceptsIdle, hclosed] at haccepts
  · exact hidle
  · exact absurd (hdrains cs List.prefix_rfl) (by simp [hundrained])

theorem inOrder_after (hcreate : create config addresses now = .ok p) (hruns : p.Runs as)
    (i : Nat) : (p.after as).InOrder i (along takenBack p as) := by
  have hordered := ordered_after hcreate hruns
  have hcapped := invariant_capped.after hruns (.of_create hcreate) (capped_of_create hcreate)
  exact ⟨hcapped.idle i, (List.nodup_dedup _).sublist (hordered.latest i), hordered.latest i,
    hordered.sorted i⟩

/-- After every run, the idle queue of a shard is within its limit and in the order in which its
connections were returned for the last time, and none in it was used later than one behind it. So
where none is validated, a get with nobody else around closes the connections that are too old and
no others, lends the one of the others that came back first, and leaves none that is too old. It does
so at every shard: a closed one has nothing idle, as with nobody else around nobody drains it. -/
theorem idle_queue_spec (hcreate : create config addresses now = .ok p) (hruns : p.Runs as)
    (i : Nat) :
    (p.after as).InOrder i (along takenBack p as) ∧
    (i < addresses.length → config.testOnBorrow = false →
      (((p.after as).shard i).closed = true → ∀ d, (p.after as).drainedBy i d = false) →
      (p.after as).Refreshes i) := by
  have hinOrder := inOrder_after hcreate hruns i
  refine ⟨hinOrder, fun hi htest hundrained => ?_⟩
  obtain ⟨hconfig, hlength⟩ := fixed_after hruns (.of_create hcreate)
  have hi : i < (p.after as).shards.length := by
    rwa [hlength, length_shards_of_create hcreate]
  have htest : (p.after as).config.testOnBorrow = false := by
    rwa [hconfig, (stands_of_create hcreate).config]
  constructor
  · intro f hf
    obtain ⟨xs, q, result, hends, hmakes⟩ := (halts_borrow hi).exists_ends f []
    rw [now_borrow] at hmakes
    exact ⟨xs, q, result, hends, hmakes, hmakes.closesAtOnce hf⟩
  · intro xs q result hends hcloses
    cases hclosed : ((p.after as).shard i).closed with
    | true =>
      exact ⟨[], [], purges_of_closed hclosed
        (idle_of_closed hcreate hclosed (hundrained hclosed)) hends⟩
    | false => exact exists_purges_of_open hi hclosed hinOrder.sorted htest hends hcloses

/-- A shard whose idle connections are too old after five nanoseconds. -/
def keptForFive : Pool where
  config := { idleTimeout := some ⟨5⟩ }
  shards := [{ address := "a:1" }]
  numAvailable := 1
  journal := [.event (.poolStarted 1 5)]

/-- Three connections are dialed. The last one comes back at once and the others later. -/
def threeReturns : List Action :=
  [.start .get, .resume 0 (.ok ()), .start .get, .resume 1 (.ok ()), .start .get,
    .resume 2 (.ok ()), .start (.put 2 false), .setTime ⟨7⟩, .start (.put 0 false),
    .start (.put 1 false)]

/-- The connection that came back first is too old and is closed, and the next one is lent. -/
theorem idle_queue_spec_three :
    create { idleTimeout := some ⟨5⟩ } ["a:1"] .zero = .ok keptForFive ∧
      keptForFive.Runs threeReturns ∧
      ((keptForFive.after threeReturns).shard 0).idle = [2, 0, 1] ∧
      (keptForFive.after threeReturns).InOrder 0 [2, 0, 1] ∧
      ∃ old young xs q, (keptForFive.after threeReturns).Purges 0 old young xs q (.ok 0) ∧
        xs.map Exchange.call = [.close (.own 2)] ∧ (q.shard 0).idle = [1] := by
  have hcreate : create { idleTimeout := some ⟨5⟩ } ["a:1"] .zero = .ok keptForFive := rfl
  have hruns : keptForFive.Runs threeReturns := by decide
  have hends : ∃ q, (borrowing 0).Ends ((keptForFive.after threeReturns).borrow 0)
      [⟨.close (.own 2), ⟨7⟩, .ok ()⟩] q (.ok 0) ∧ (q.shard 0).idle = [1] :=
    ⟨_, .of_waits (s := .discarding 2) (by decide) rfl (by decide) <| .of_done (by decide),
      by decide⟩
  obtain ⟨hinOrder, hrefreshes⟩ := idle_queue_spec hcreate hruns 0
  obtain ⟨q, hends, hidle⟩ := hends
  obtain ⟨old, young, hpurges⟩ := (hrefreshes (by decide) rfl (fun h => absurd h (by decide))).purges
    _ q _ hends ⟨fun _ => by decide, trivial⟩
  exact ⟨hcreate, hruns, by decide, hinOrder, old, young, _, q, hpurges, rfl, hidle⟩

end Run

end Pool

end QuorumPool
