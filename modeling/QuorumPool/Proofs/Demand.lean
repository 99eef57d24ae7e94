import QuorumPool.Proofs.Dials
import QuorumPool.Proofs.ShardPut

namespace QuorumPool

/-- Under the configuration, no get turns down an idle connection. -/
structure Config.Lenient (config : Config) : Prop where
  idleTimeout : config.idleTimeout = none
  testOnBorrow : config.testOnBorrow = false

namespace Pool

/-- What happens to the pool without concerning shard `i`, as a get at another shard does. -/
structure SparesShard (p : Pool) (i : Nat) (q : Pool) : Prop where
  config : q.config = p.config
  length : q.shards.length = p.shards.length
  shard : q.shard i = p.shard i
  conns : ∀ (c : Nat) conn, conn.shard = i →
    (q.conns[c]? = some conn ↔ p.conns[c]? = some conn)

/-- One use of shard `i` with nobody else around, with its exchanges and the pool at its end: a get
whose dial succeeds if it makes one, or a sound return of a connection of the shard, whether it is
lent or was returned before. What does not concern the shard may happen in between. -/
inductive Use (p : Pool) (i : Nat) : List Exchange → Pool → Prop
  | get {xs q result} (hends : (borrowing i).Ends (p.borrow i) xs q result)
      (hdials : ∀ x ∈ xs, x.call.isDial = true → x.reply = .ok ()) : Use p i xs q
  | put {c conn xs q result} (hconn : p.conns[c]? = some conn) (hhome : conn.shard = i)
      (hends : (returning c).Ends (p.put c false) xs q result) : Use p i xs q
  | elsewhere {q} (hspares : p.SparesShard i q) : Use p i [] q

/-- Uses of shard `i` one after the other, with the exchanges of all and the largest number of
slots that were taken before, between and after them. -/
inductive Uses (i : Nat) : Pool → List Exchange → Pool → (peak : Nat) → Prop
  | nil (p : Pool) : Uses i p [] p (p.shard i).active
  | cons {p xs q ys r peak} (huse : p.Use i xs q) (hrest : Uses i q ys r peak) :
      Uses i p (xs ++ ys) r (max (p.shard i).active peak)

/-- Shard `i` is in service and has `n` connections, each of them lent or idle, and by its counters
these are all that it ever dialed. -/
structure Supplied (p : Pool) (i n : Nat) : Prop where
  length : i < p.shards.length
  available : (p.shard i).available = true
  isOpen : (p.shard i).closed = false
  active : (p.shard i).active = p.lentOf i
  idle : ∀ c ∈ (p.shard i).idle, ∃ conn, p.conns[c]? = some conn ∧ conn.shard = i ∧
    conn.borrowed = false
  nodup : (p.shard i).idle.Nodup
  total : (p.shard i).active + (p.shard i).idle.length = n
  within : p.config.maxActive = 0 ∨ n ≤ p.config.maxActive
  dials : (p.shard i).tally.dials = n
  closes : (p.shard i).tally.closes = 0

/-- By the exchanges, shard `i` has come from `n` connections to `m`, and has closed none. -/
structure Grows (p : Pool) (i n : Nat) (xs : List Exchange) (q : Pool) (m : Nat) : Prop where
  config : q.config = p.config
  supplied : q.Supplied i m
  dials : xs.countP (·.call.isDial) + n = m
  closes : ∀ x ∈ xs, ∀ t, x.call ≠ .close t

variable {p q r : Pool} {i n m l : Nat} {c : ConnId} {xs ys : List Exchange}

theorem Uses.active_le {peak : Nat} (huses : Uses i p xs q peak) : (p.shard i).active ≤ peak := by
  cases huses with
  | nil => exact Nat.le_refl _
  | cons => exact Nat.le_max_left _ _

theorem Grows.refl (hp : p.Supplied i n) : p.Grows i n [] p n :=
  ⟨rfl, hp, Nat.zero_add n, fun _ hx => nomatch hx⟩

theorem Grows.trans (hxs : p.Grows i n xs q m) (hys : q.Grows i m ys r l) :
    p.Grows i n (xs ++ ys) r l := by
  refine ⟨hys.config.trans hxs.config, hys.supplied, ?_, ?_⟩
  · rw [List.countP_append, Nat.add_comm (List.countP _ xs), Nat.add_assoc, hxs.dials, hys.dials]
  · rw [List.forall_mem_append]
    exact ⟨hxs.closes, hys.closes⟩

theorem Supplied.active_le (hp : p.Supplied i n) : (p.shard i).active ≤ n := by
  have htotal := hp.total
  omega

theorem shard_of_set {s : Shard} (hi : i < p.shards.length)
    (hshards : q.shards = p.shards.set i s) :
    q.shards.length = p.shards.length ∧ q.shard i = s := by
  simp [shard, hshards, List.getD_eq_getElem?_getD, hi]

/-- A get at a lenient shard takes the head of the queue as it is. -/
theorem concludes_of_lenient {result : Except PoolError ConnId} (hp : p.Supplied i n)
    (hlenient : p.config.Lenient) (hends : (borrowing i).Ends (p.borrow i) xs q result) :
    p.Concludes i ((p.shard i).count Tally.countGet) p.now xs { q with journal := p.journal }
      result := by
  rw [borrow_of_open hp.length hp.isOpen] at hends
  obtain ⟨rejected, rest, later, ys, hidle, hrejects, rfl, hconcludes⟩ :=
    accounts_of_ends hp.length hends
  cases hrejects with
  | nil =>
    cases hidle
    exact hconcludes
  | outdated hold =>
    obtain ⟨_, _, htimeout, _⟩ := hold
    cases hlenient.idleTimeout.symm.trans htimeout
  | invalid _ htest => cases hlenient.testOnBorrow.symm.trans htest

/-- A connection in the queue that is not the one changed is what it was. -/
theorem Supplied.idle_of_ne {d : ConnId} {g : Conn → Conn} (hp : p.Supplied i n)
    (hd : d ∈ (p.shard i).idle) (hcd : c ≠ d)
    (hconns : q.conns = (p.modifyConn c g).conns) :
    ∃ conn, q.conns[d]? = some conn ∧ conn.shard = i ∧ conn.borrowed = false := by
  obtain ⟨conn, hconn, hhome, hfree⟩ := hp.idle d hd
  exact ⟨conn, by rw [hconns, getElem?_modifyConn, hconn, Option.map_some, if_neg hcd], hhome, hfree⟩

/-- The head of the queue is lent. -/
theorem Supplied.lend {rest : List ConnId} (hp : p.Supplied i n)
    (hidle : (p.shard i).idle = c :: rest) (hconfig : q.config = p.config)
    (hlength : q.shards.length = p.shards.length)
    (hshard : q.shard i =
      { (p.shard i).count Tally.countGet with
        idle := rest
        active := (p.shard i).active + 1 })
    (hconns : q.conns = (p.modifyConn c fun conn => { conn with borrowed := true }).conns) :
    q.Supplied i n := by
  obtain ⟨conn, hconn, hhome, hfree⟩ := hp.idle c (hidle ▸ List.mem_cons_self)
  have hlent : q.lentOf i = p.lentOf i + 1 := by
    have hcount := lentOf_modifyConn (g := fun conn => { conn with borrowed := true }) hconn i
    rw [lentOf, hconns, ← lentOf]
    simpa [Conn.isLentBy, hfree, hhome] using hcount
  have hnodup := hp.nodup
  rw [hidle, List.nodup_cons] at hnodup
  have htotal := hp.total
  rw [hidle, List.length_cons] at htotal
  exact {
    length := hlength ▸ hp.length
    available := hshard ▸ hp.available
    isOpen := hshard ▸ hp.isOpen
    active := by rw [hshard, hlent, hp.active]
    idle := by
      rw [hshard]
      exact fun d hd => hp.idle_of_ne (hidle ▸ List.mem_cons_of_mem c hd)
        (ne_of_mem_of_not_mem hd hnodup.1).symm hconns
    nodup := hshard ▸ hnodup.2
    total := by
      rw [hshard]
      dsimp only
      omega
    within := hconfig ▸ hp.within
    dials := hshard ▸ hp.dials
    closes := hshard ▸ hp.closes }

/-- A connection is dialed when none is idle, and lent. -/
theorem Supplied.adopt {t : Duration} (hp : p.Supplied i n) (hidle : (p.shard i).idle = [])
    (hroom : p.config.maxActive = 0 ∨ (p.shard i).active < p.config.maxActive)
    (hconfig : q.config = p.config) (hlength : q.shards.length = p.shards.length)
    (hshard : q.shard i =
      { (p.shard i).count fun tally => tally.countGet.countDial with
        active := (p.shard i).active + 1
        fails := 0 })
    (hconns : q.conns = p.conns ++ [⟨i, true, t⟩]) : q.Supplied i (n + 1) := by
  have hlent : q.lentOf i = p.lentOf i + 1 := by
    simp [lentOf, hconns, Conn.isLentBy]
  have htotal := hp.total
  rw [hidle, List.length_nil, Nat.add_zero] at htotal
  exact {
    length := hlength ▸ hp.length
    available := hshard ▸ hp.available
    isOpen := hshard ▸ hp.isOpen
    active := by rw [hshard, hlent, hp.active]
    idle := by
      rw [hshard]
      exact fun d hd => absurd hd (by simp [Shard.count, hidle])
    nodup := hshard ▸ hp.nodup
    total := by
      rw [hshard]
      simp [Shard.count, hidle, htotal]
    within := by
      rw [hconfig]
      omega
    dials := by
      rw [hshard]
      exact congrArg (· + 1) hp.dials
    closes := hshard ▸ hp.closes }

/-- A lent connection comes back to the queue. -/
theorem Supplied.reclaim {conn : Conn} {t : Duration} (hp : p.Supplied i n)
    (hconn : p.conns[c]? = some conn) (hhome : conn.shard = i) (hborrowed : conn.borrowed = true)
    (hconfig : q.config = p.config) (hlength : q.shards.length = p.shards.length)
    (hshard : q.shard i =
      { (p.shard i).reclaimed false with idle := (p.shard i).idle ++ [c] })
    (hconns : q.conns =
      (p.modifyConn c fun conn => { conn with borrowed := false, lastUsed := t }).conns) :
    q.Supplied i n := by
  have hlent : q.lentOf i + 1 = p.lentOf i := by
    have hcount := lentOf_unlend (t := t) hconn hborrowed i
    rwa [if_pos hhome, lentOf, ← hconns, ← lentOf] at hcount
  have hactive : (p.shard i).active = q.lentOf i + 1 := hp.active.trans hlent.symm
  have hnew : ∀ d ∈ (p.shard i).idle, c ≠ d := by
    rintro d hd rfl
    obtain ⟨conn', hconn', -, hfree⟩ := hp.idle c hd
    cases hconn.symm.trans hconn'
    cases hborrowed.symm.trans hfree
  exact {
    length := hlength ▸ hp.length
    available := hshard ▸ hp.available
    isOpen := hshard ▸ hp.isOpen
    active := by
      rw [hshard]
      simp [Shard.reclaimed, hactive]
    idle := by
      rw [hshard, List.forall_mem_append]
      refine ⟨fun d hd => hp.idle_of_ne hd (hnew d hd) hconns, List.forall_mem_singleton.mpr ?_⟩
      exact ⟨{ conn with borrowed := false, lastUsed := t },
        by rw [hconns, getElem?_modifyConn, hconn, Option.map_some, if_pos rfl], hhome, rfl⟩
    nodup := by
      rw [hshard]
      simpa using List.Nodup.concat (fun hd => hnew c hd rfl) hp.nodup
    total := by
      have htotal := hp.total
      rw [hshard]
      simp only [Shard.reclaimed, List.length_append, List.length_singleton]
      omega
    within := hconfig ▸ hp.within
    dials := hshard ▸ hp.dials
    closes := hshard ▸ hp.closes }

/-- Whatever leaves the connections and all but the number of the gets alone. -/
theorem Supplied.keep {gets : Nat} (hp : p.Supplied i n) (hconfig : q.config = p.config)
    (hlength : q.shards.length = p.shards.length)
    (hshard : q.shard i = (p.shard i).count fun tally => { tally with gets })
    (hconns : ∀ (c : Nat) conn, conn.shard = i →
      (q.conns[c]? = some conn ↔ p.conns[c]? = some conn)) : q.Supplied i n := by
  have hlent : q.lentOf i = p.lentOf i := lentOf_congr fun c => by
    rw [Bool.eq_iff_iff, Option.any_eq_true, Option.any_eq_true]
    refine exists_congr fun conn => and_congr_left fun hlent => hconns c conn ?_
    simp only [Conn.isLentBy, Bool.and_eq_true, beq_iff_eq] at hlent
    exact hlent.2
  exact {
    length := hlength ▸ hp.length
    available := hshard ▸ hp.available
    isOpen := hshard ▸ hp.isOpen
    active := by
      rw [hshard, hlent]
      exact hp.active
    idle := by
      rw [hshard]
      intro c hc
      obtain ⟨conn, hconn, hhome, hfree⟩ := hp.idle c hc
      exact ⟨conn, (hconns c conn hhome).mpr hconn, hhome, hfree⟩
    nodup := hshard ▸ hp.nodup
    total := hshard ▸ hp.total
    within := hconfig ▸ hp.within
    dials := hshard ▸ hp.dials
    closes := hshard ▸ hp.closes }

theorem Supplied.spares (hp : p.Supplied i n) (hspares : p.SparesShard i q) : q.Supplied i n :=
  hp.keep hspares.config hspares.length hspares.shard hspares.conns

theorem Supplied.grows (hq : q.Supplied i n) (hconfig : q.config = p.config) :
    p.Grows i n [] q (max n (q.shard i).active) := by
  rw [Nat.max_eq_left hq.active_le]
  exact ⟨hconfig, hq, Nat.zero_add n, fun _ hx => nomatch hx⟩

theorem grows_get {result : Except PoolError ConnId} (hp : p.Supplied i n)
    (hlenient : p.config.Lenient) (hends : (borrowing i).Ends (p.borrow i) xs q result)
    (hdials : ∀ x ∈ xs, x.call.isDial = true → x.reply = .ok ()) :
    p.Grows i n xs q (max n (q.shard i).active) := by
  have hconcludes := concludes_of_lenient hp hlenient hends
  generalize hq : ({ q with journal := p.journal } : Pool) = q' at hconcludes
  have hconfig : q.config = q'.config := by rw [← hq]
  have hshards : q.shards = q'.shards := by rw [← hq]
  have hconns : q.conns = q'.conns := by rw [← hq]
  cases hconcludes with
  | fresh hidle _ _ =>
    obtain ⟨hlength, hshard⟩ := shard_of_set hp.length hshards
    exact (hp.lend hidle hconfig hlength hshard hconns).grows hconfig
  | valid _ _ htest _ => cases hlenient.testOnBorrow.symm.trans htest
  | exhausted _ _ _ =>
    obtain ⟨hlength, hshard⟩ := shard_of_set hp.length hshards
    exact (hp.keep hconfig hlength hshard fun _ _ _ => by rw [hconns]).grows hconfig
  | dialed hidle hroom _ =>
    obtain ⟨hlength, hshard⟩ := shard_of_set hp.length hshards
    have hq := hp.adopt hidle hroom hconfig hlength hshard hconns
    have htotal := hp.total
    have hmax : max n (q.shard i).active = n + 1 := by
      have hidle : (p.shard i).idle = [] := hidle
      rw [hidle, List.length_nil, Nat.add_zero] at htotal
      rw [hshard]
      show max n ((p.shard i).active + 1) = n + 1
      rw [htotal, Nat.max_eq_right (Nat.le_succ n)]
    rw [hmax]
    refine ⟨hconfig, hq, Nat.add_comm 1 n, fun x hx t hcall => ?_⟩
    cases List.mem_singleton.mp hx
    cases hcall
  | failed _ _ _ => cases hdials _ List.mem_cons_self rfl

/-- A return finds its connection returned before, or there is room for it in the queue. -/
theorem grows_put {conn : Conn} {result : Except PoolError Unit} (hp : p.Supplied i n)
    (hroom : n ≤ p.config.maxIdle) (hconn : p.conns[c]? = some conn) (hhome : conn.shard = i)
    (hends : (returning c).Ends (p.put c false) xs q result) :
    p.Grows i n xs q (max n (q.shard i).active) := by
  cases hborrowed : conn.borrowed with
  | false =>
    rw [put_of_not_borrowed hconn hborrowed] at hends
    obtain ⟨rfl, rfl, rfl⟩ := Activity.ends_done_iff.mp hends
    exact hp.grows rfl
  | true =>
    subst hhome
    have hdisposes := disposes_of_ends hp.length hconn hborrowed hends
    generalize hq : ({ q with journal := p.journal } : Pool) = q' at hdisposes
    have hconfig : q.config = q'.config := by rw [← hq]
    have hshards : q.shards = q'.shards := by rw [← hq]
    have hconns : q.conns = q'.conns := by rw [← hq]
    cases hdisposes with
    | queued hs _ =>
      subst hs
      obtain ⟨hlength, hshard⟩ := shard_of_set hp.length hshards
      exact (hp.reclaim hconn rfl hborrowed hconfig hlength hshard hconns).grows hconfig
    | refused hs hout _ =>
      subst hs
      simp [Shard.reclaimed, hp.available, hp.isOpen] at hout
    | evicted hs _ _ _ hfull _ =>
      subst hs
      have hlent := lentOf_pos hconn hborrowed
      have hactive := hp.active
      have htotal := hp.total
      have hfull : p.config.maxIdle ≤ (p.shard conn.shard).idle.length := hfull
      omega

theorem grows_use (hp : p.Supplied i n) (hlenient : p.config.Lenient)
    (hroom : n ≤ p.config.maxIdle) (huse : p.Use i xs q) :
    p.Grows i n xs q (max n (q.shard i).active) := by
  cases huse with
  | get hends hdials => exact grows_get hp hlenient hends hdials
  | put hconn hhome hends => exact grows_put hp hroom hconn hhome hends
  | elsewhere hspares => exact (hp.spares hspares).grows hspares.config

/-- However a shard is used, its connections grow in number only with the peak of its slots. -/
theorem grows_uses {peak : Nat} (hp : p.Supplied i n) (hlenient : p.config.Lenient)
    (hroom : max n peak ≤ p.config.maxIdle) (huses : Uses i p xs q peak) :
    p.Grows i n xs q (max n peak) := by
  induction huses generalizing n with
  | nil p =>
    rw [Nat.max_eq_left hp.active_le]
    exact .refl hp
  | @cons p xs q ys r peak huse hrest ih =>
    have hbound : max n peak ≤ p.config.maxIdle := by omega
    have hstep : p.Grows i n xs q (max n (q.shard i).active) :=
      grows_use hp hlenient (by omega) huse
    have hpeak : (q.shard i).active ≤ peak := hrest.active_le
    have hrun := ih hstep.supplied (hstep.config ▸ hlenient) (by rw [hstep.config]; omega)
    have hactive := hp.active_le
    have hmax : max n (max (p.shard i).active peak) = max (max n (q.shard i).active) peak := by omega
    rw [hmax]
    exact hstep.trans hrun

theorem supplied_of_create {config : Config} {addresses : List String} {now : Duration}
    (hcreate : create config addresses now = .ok p) (hi : i < addresses.length) :
    p.Supplied i 0 := by
  have hshard := shard_of_create hcreate hi
  obtain ⟨_, _, hp⟩ := eq_of_create hcreate
  have hconns : p.conns = [] := by rw [hp]; rfl
  exact {
    length := length_shards_of_create hcreate ▸ hi
    available := by rw [hshard]
    isOpen := by rw [hshard]
    active := by rw [hshard, lentOf, hconns, List.countP_nil]
    idle := by
      rw [hshard]
      exact fun c hc => absurd hc List.not_mem_nil
    nodup := by
      rw [hshard]
      exact List.nodup_nil
    total := by rw [hshard]; rfl
    within := .inr (Nat.zero_le _)
    dials := by rw [hshard]
    closes := by rw [hshard] }

/-- With its connections all lent up to the limit, a shard refuses a get. -/
theorem Supplied.borrow_of_full (hp : p.Supplied i n) (hlimit : 0 < p.config.maxActive)
    (hfull : p.config.maxActive ≤ (p.shard i).active) :
    p.borrow i = (p.count i Tally.countGet, .done (.error .poolExhausted)) := by
  have hidle : (p.shard i).idle = [] := by
    have htotal := hp.total
    have hwithin := hp.within
    exact List.length_eq_zero_iff.mp (by omega)
  have hroom : ((p.shard i).count Tally.countGet).hasRoom p.config.maxActive = false := by
    simp [Shard.hasRoom, Shard.count, Nat.ne_of_gt hlimit, Nat.not_lt_of_le hfull]
  rw [borrow_of_open hp.length hp.isOpen,
    serve_recast_nil hp.length ((Shard.idle_count _ _).trans hidle), hroom,
    if_neg Bool.false_ne_true, ← count_recast, recast_self hp.length]

/-- A new shard is used in any way, one get or sound return after the other, and its dials succeed;
no get has a reason to turn down an idle connection, and the shard may keep as many idle as were
ever lent at once. Then it has dialed exactly as many connections as were ever lent at once, and
closed none of them. This is at most the limit, and at the limit a get is refused without a dial. -/
theorem dials_eq_peak {config : Config} {addresses : List String} {now : Duration} {peak : Nat}
    (hcreate : create config addresses now = .ok p) (hi : i < addresses.length)
    (htimeout : config.idleTimeout = none) (htest : config.testOnBorrow = false)
    (huses : Uses i p xs q peak) (hpeak : peak ≤ config.maxIdle) :
    xs.countP (·.call.isDial) = peak ∧ (q.shard i).tally.dials = peak ∧
      (∀ x ∈ xs, ∀ t, x.call ≠ .close t) ∧ (q.shard i).tally.closes = 0 ∧
      (0 < config.maxActive → peak ≤ config.maxActive ∧
        (config.maxActive ≤ (q.shard i).active →
          q.borrow i = (q.count i Tally.countGet, .done (.error .poolExhausted)))) := by
  have hconfig : p.config = config := (stands_of_create hcreate).config
  have hlenient : p.config.Lenient := hconfig ▸ ⟨htimeout, htest⟩
  have hgrows : p.Grows i 0 xs q (max 0 peak) :=
    grows_uses (supplied_of_create hcreate hi) hlenient (by rwa [hconfig, Nat.zero_max]) huses
  rw [Nat.zero_max] at hgrows
  have hq : q.config = config := hgrows.config.trans hconfig
  have hwithin := hq ▸ hgrows.supplied.within
  refine ⟨hgrows.dials, hgrows.supplied.dials, hgrows.closes, hgrows.supplied.closes,
    fun hlimit => ⟨hwithin.resolve_left (Nat.ne_of_gt hlimit), fun hfull => ?_⟩⟩
  exact hgrows.supplied.borrow_of_full (hq ▸ hlimit) (hq ▸ hfull)

/-- Of two shards that lend one connection each. -/
def lentOnce : Pool where
  config := { maxIdle := 1, maxActive := 1 }
  shards := [{ address := "a:1" }, { address := "b:1" }]
  numAvailable := 2
  journal := [.event (.poolStarted 2 5)]

/-- A shard dials, is asked for more than its limit and refuses, has its connection returned twice
and lends it again, while the other shard lends one of its own. -/
theorem dials_eq_peak_one :
    create { maxIdle := 1, maxActive := 1 } ["a:1", "b:1"] .zero = .ok lentOnce ∧
      ∃ xs q, Uses 0 lentOnce xs q 1 ∧ (q.shard 0).active = 1 ∧ (q.shard 0).tally.gets = 3 ∧
        xs.countP (·.call.isDial) = 1 ∧ (q.shard 0).tally.dials = 1 ∧
        q.borrow 0 = (q.count 0 Tally.countGet, .done (.error .poolExhausted)) := by
  have hcreate : create { maxIdle := 1, maxActive := 1 } ["a:1", "b:1"] .zero = .ok lentOnce := rfl
  let dialed : Exchange := ⟨.dial 0 "a:1", ⟨2⟩, .ok ()⟩
  let first : Pool := ((lentOnce.borrow 0).1.setTime ⟨2⟩).adopt 0
  let refused : Pool := (first.borrow 0).1
  let elsewhere : Pool := (refused.borrow 1).1.adopt 1
  let returned : Pool := (elsewhere.put 0 false).1
  let again : Pool := (returned.put 0 false).1
  let last : Pool := (again.borrow 0).1
  have hfirst : lentOnce.Use 0 [dialed] first :=
    .get (.of_waits (s := .dialing) rfl rfl (by decide) (.of_done rfl))
      fun x hx _ => by rw [List.mem_singleton.mp hx]
  have hrefused : first.Use 0 [] refused := .get (.of_done rfl) fun _ hx => nomatch hx
  have helsewhere : refused.Use 0 [] elsewhere := by
    refine .elsewhere ⟨by decide, by decide, by decide, fun c conn hhome => ?_⟩
    have hconns : elsewhere.conns = refused.conns ++ [⟨1, true, ⟨2⟩⟩] := by decide
    rw [hconns, List.getElem?_append]
    split
    · rfl
    · rename_i hc
      rw [List.getElem?_eq_none (Nat.le_of_not_lt hc)]
      refine iff_of_false (fun hconn => ?_) (fun hconn => nomatch hconn)
      cases List.mem_singleton.mp (List.mem_of_getElem? hconn)
      cases hhome
  have hlent : elsewhere.conns[0]? = some ⟨0, true, ⟨2⟩⟩ := by decide
  have hidle : returned.conns[0]? = some ⟨0, false, ⟨2⟩⟩ := by decide
  have hput : (elsewhere.put 0 false).2 = .done (.ok ()) := by decide
  have hrepeated : (returned.put 0 false).2 = .done (.error .invalidReturn) := by decide
  have hreuse : (again.borrow 0).2 = .done (.ok 0) := by decide
  have hreturned : elsewhere.Use 0 [] returned := .put hlent rfl (.of_done hput)
  have hagain : returned.Use 0 [] again := .put hidle rfl (.of_done hrepeated)
  have hlast : again.Use 0 [] last := .get (.of_done hreuse) fun _ hx => nomatch hx
  have huses : ∃ peak, Uses 0 lentOnce [dialed] last peak ∧ peak = 1 :=
    ⟨_, .cons hfirst <| .cons hrefused <| .cons helsewhere <| .cons hreturned <| .cons hagain <|
      .cons hlast <| .nil last, by decide⟩
  obtain ⟨peak, huses, rfl⟩ := huses
  obtain ⟨hdials, hcount, -, -, hlimit⟩ :=
    dials_eq_peak hcreate (by decide) rfl rfl huses (Nat.le_refl 1)
  exact ⟨hcreate, _, _, huses, by decide, by decide, hdials, hcount,
    (hlimit Nat.one_pos).2 (by decide)⟩

end Pool

end QuorumPool
