import Mathlib.Data.List.Forall2
import QuorumPool.Proofs.Shards
import QuorumPool.Proofs.Solo

namespace QuorumPool

/-- An idle connection that a get took from the queue and did not lend. -/
structure Rejection where
  conn : ConnId
  /-- When its validation failed and how; none for a connection that was too old to be validated. -/
  failure : Option (Duration × PoolError)
  /-- When the factory had closed it. -/
  closed : Duration
  /-- What the factory said to the close. -/
  reply : Reply

namespace Rejection

/-- Whether the connection was turned down for its age. -/
def isEviction (r : Rejection) : Bool := r.failure.isNone

/-- What passes between the pool and the factory over the connection. -/
def exchanges (r : Rejection) : List Exchange :=
  r.failure.elim [] (fun (time, e) => [⟨.validate (.own r.conn), time, .error e⟩])
    ++ [⟨.close (.own r.conn), r.closed, r.reply⟩]

end Rejection

namespace Pool

/-- Whether the connection has, at the time `now`, been idle for longer than the idle timeout. -/
def Outdated (p : Pool) (now : Duration) (c : ConnId) : Prop :=
  ∃ timeout conn, p.config.idleTimeout = some timeout ∧ p.conns[c]? = some conn ∧
    timeout < now - conn.lastUsed

/-- From the time `now` on, connections are turned down one after the other until the time `later`,
each for its age at the moment at which it is taken from the queue, or else for a validation. -/
inductive Rejects (p : Pool) : (now : Duration) → List Rejection → (later : Duration) → Prop
  | nil (now : Duration) : Rejects p now [] now
  | outdated {now r rs later} (hold : p.Outdated now r.conn) (hfailure : r.failure = none)
      (hclosed : now ≤ r.closed) (hrest : Rejects p r.closed rs later) :
      Rejects p now (r :: rs) later
  | invalid {now r rs later time e} (hfresh : ¬p.Outdated now r.conn)
      (htest : p.config.testOnBorrow = true) (hfailure : r.failure = some (time, e))
      (hvalidated : now ≤ time) (hclosed : time ≤ r.closed)
      (hrest : Rejects p r.closed rs later) : Rejects p now (r :: rs) later

/-- The suspect queue after a failure that brings shard `i` to the given failure count. -/
def suspectsAfter (p : Pool) (i fails : Nat) : List Nat :=
  if fails = p.config.maxFails ∧ p.checker ≠ .stopped ∧
      p.suspects.length < p.config.suspectQueueCapacity then p.suspects ++ [i]
  else p.suspects

/-- How a get at shard `i` goes on at the time `now`, when it has turned down what it had to and the
shard is left as `s`: the exchanges that remain, the pool at the end, and the result. -/
inductive Concludes (p : Pool) (i : Nat) (s : Shard) (now : Duration) :
    List Exchange → Pool → Except PoolError ConnId → Prop
  | fresh {c rest} (hidle : s.idle = c :: rest) (hfresh : ¬p.Outdated now c)
      (htest : p.config.testOnBorrow = false) :
      Concludes p i s now []
        { p with
          shards := p.shards.set i { s with idle := rest, active := s.active + 1 }
          conns := p.conns.modify c fun conn => { conn with borrowed := true }
          now }
        (.ok c)
  | valid {c rest time} (hidle : s.idle = c :: rest) (hfresh : ¬p.Outdated now c)
      (htest : p.config.testOnBorrow = true) (htime : now ≤ time) :
      Concludes p i s now [⟨.validate (.own c), time, .ok ()⟩]
        { p with
          shards := p.shards.set i { s with idle := rest, active := s.active + 1 }
          conns := p.conns.modify c fun conn => { conn with borrowed := true }
          now := time }
        (.ok c)
  | exhausted (hidle : s.idle = []) (hlimit : 0 < p.config.maxActive)
      (hfull : p.config.maxActive ≤ s.active) :
      Concludes p i s now [] { p with shards := p.shards.set i s, now } (.error .poolExhausted)
  | dialed {time} (hidle : s.idle = [])
      (hroom : p.config.maxActive = 0 ∨ s.active < p.config.maxActive) (htime : now ≤ time) :
      Concludes p i s now [⟨.dial i s.address, time, .ok ()⟩]
        { p with
          shards := p.shards.set i
            { s with
              active := s.active + 1
              fails := 0
              tally := { s.tally with dials := s.tally.dials + 1 } }
          conns := p.conns ++ [{ shard := i, borrowed := true, lastUsed := time }]
          now := time }
        (.ok p.conns.length)
  | failed {time e} (hidle : s.idle = [])
      (hroom : p.config.maxActive = 0 ∨ s.active < p.config.maxActive) (htime : now ≤ time) :
      Concludes p i s now [⟨.dial i s.address, time, .error e⟩]
        { p with
          shards := p.shards.set i
            { s with
              fails := s.fails + 1
              tally :=
                { s.tally with
                  dials := s.tally.dials + 1
                  dialErrors := s.tally.dialErrors + 1 } }
          suspects := p.suspectsAfter i (s.fails + 1)
          now := time }
        (.error e)

/-- What a get at shard `i` does from the time `now` on, when the shard is `s`, with its exchanges,
the pool at its end and its result. Nothing is said of what the pool writes down. -/
def Accounts (p : Pool) (i : Nat) (s : Shard) (now : Duration) (xs : List Exchange) (q : Pool)
    (result : Except PoolError ConnId) : Prop :=
  ∃ rejected rest later ys,
    s.idle = rejected.map Rejection.conn ++ rest ∧
    p.Rejects now rejected later ∧
    xs = rejected.flatMap Rejection.exchanges ++ ys ∧
    p.Concludes i
      { s with
        idle := rest
        tally :=
          { s.tally with
            evictions := s.tally.evictions + rejected.countP Rejection.isEviction
            closes := s.tally.closes + rejected.length } }
      later ys { q with journal := p.journal } result

/-- The pool as it is at the time `now` when only its shard `i` and its journal have changed. -/
def recast (p : Pool) (i : Nat) (s : Shard) (now : Duration) (journal : List Entry) : Pool :=
  { p with shards := p.shards.set i s, now, journal }

section Recast

variable {p q : Pool} {i : Nat} {s : Shard} {now : Duration} {journal : List Entry} {c : ConnId}
  {rest : List ConnId} {xs ys : List Exchange} {result : Except PoolError ConnId}

theorem shard_recast (hi : i < p.shards.length) : (p.recast i s now journal).shard i = s := by
  simp [shard, recast, List.getD_eq_getElem?_getD, hi]

theorem recast_self (hi : i < p.shards.length) :
    p.recast i (p.shard i) p.now p.journal = p := by
  rw [shard_eq_getElem hi, recast, List.set_getElem_self]

theorem modifyShard_recast (f : Shard → Shard) :
    (p.recast i s now journal).modifyShard i f = p.recast i (f s) now journal := by
  have hshards : (p.shards.set i s).modify i f = p.shards.set i (f s) := by
    refine List.ext_getElem (by simp) fun j _ _ => ?_
    simp only [List.getElem_modify, List.getElem_set]
    split <;> simp
  simp only [modifyShard, recast, hshards]

theorem count_recast (f : Tally → Tally) :
    (p.recast i s now journal).count i f = p.recast i (s.count f) now journal :=
  modifyShard_recast _

theorem note_recast (e : Event) :
    (p.recast i s now journal).note e = p.recast i s now (.event e :: journal) := rfl

theorem setTime_recast (later : Duration) :
    (p.recast i s now journal).setTime later = p.recast i s later journal := rfl

theorem isStale_recast (s : Shard) (journal : List Entry) :
    (p.recast i s now journal).isStale c = true ↔ p.Outdated now c := by
  unfold isStale Outdated
  simp only [recast]
  split
  · rename_i timeout conn htimeout hconn
    constructor
    · intro hold
      exact ⟨timeout, conn, htimeout, hconn, of_decide_eq_true hold⟩
    · rintro ⟨timeout', conn', htimeout', hconn', hold⟩
      cases htimeout.symm.trans htimeout'
      cases hconn.symm.trans hconn'
      exact decide_eq_true hold
  · rename_i hnone
    constructor
    · intro h
      cases h
    · rintro ⟨timeout, conn, htimeout, hconn, _⟩
      exact (hnone timeout conn htimeout hconn).elim

theorem exists_noteIdleClose_recast (p : Pool) (i : Nat) (s : Shard) (now : Duration)
    (journal : List Entry) (reply : Reply) : ∃ journal',
    (p.recast i s now journal).noteIdleClose i reply = p.recast i s now journal' := by
  cases reply with
  | ok => exact ⟨journal, rfl⟩
  | error e => exact ⟨_, rfl⟩

theorem serve_recast_outdated (hi : i < p.shards.length) (hidle : s.idle = c :: rest)
    (hold : p.Outdated now c) :
    (p.recast i s now journal).serve i =
      (p.recast i ((({ s with idle := rest }.count Tally.countEviction)).count Tally.countClose) now
        (.event (.staleEvicted s.address) :: journal), .waits (.discarding c)) := by
  have hstale := (isStale_recast (i := i) { s with idle := rest } journal).mpr hold
  simp only [serve, shard_recast hi, hidle, dropIdle, modifyShard_recast, List.tail_cons, hstale,
    if_true, note_recast, count_recast, discard]

theorem serve_recast_fresh (hi : i < p.shards.length) (hidle : s.idle = c :: rest)
    (hfresh : ¬p.Outdated now c) :
    (p.recast i s now journal).serve i =
      if p.config.testOnBorrow then
        (p.recast i { s with idle := rest } now journal, .waits (.validating c))
      else ((p.recast i { s with idle := rest } now journal).lend i c, .done (.ok c)) := by
  have hstale := mt (isStale_recast (i := i) { s with idle := rest } journal).mp hfresh
  simp only [serve, shard_recast hi, hidle, dropIdle, modifyShard_recast, List.tail_cons, hstale]
  rfl

theorem serve_recast_nil (hi : i < p.shards.length) (hidle : s.idle = []) :
    (p.recast i s now journal).serve i =
      if s.hasRoom p.config.maxActive then
        (p.recast i (s.occupySlot.count Tally.countDial) now journal, .waits .dialing)
      else (p.recast i s now journal, .done (.error .poolExhausted)) := by
  simp only [serve, shard_recast hi, hidle, modifyShard_recast, count_recast]
  rfl

theorem lend_recast :
    (p.recast i s now journal).lend i c =
      (p.modifyConn c fun conn => { conn with borrowed := true }).recast i s.occupySlot now
        journal :=
  modifyShard_recast (p := p.modifyConn c fun conn => { conn with borrowed := true }) _

theorem exists_adopt_recast (p : Pool) (i : Nat) (s : Shard) (now : Duration)
    (journal : List Entry) : ∃ journal',
    (p.recast i s now journal).adopt i =
      ({ p with conns := p.conns ++ [⟨i, true, now⟩] } : Pool).recast i { s with fails := 0 } now
        journal' := by
  have houtcome : (p.recast i s now journal).recordOutcome i false =
      p.recast i { s with fails := 0 } now journal := modifyShard_recast _
  rw [adopt, houtcome]
  exact ⟨_, rfl⟩

theorem exists_recordFailure_recast (s : Shard) (now : Duration) (journal : List Entry)
    (hi : i < p.shards.length) : ∃ journal',
    (p.recast i s now journal).recordOutcome i true =
      ({ p with suspects := p.suspectsAfter i (s.fails + 1) } : Pool).recast i
        { s with fails := s.fails + 1 } now journal' := by
  simp only [recordOutcome, if_true, modifyShard_recast, shard_recast hi, suspectsAfter]
  by_cases hfails : s.fails + 1 = p.config.maxFails
  · by_cases hstopped : p.checker = .stopped
    · exact ⟨journal, by simp [recast, offerSuspect, hfails, hstopped]⟩
    · by_cases hroom : p.suspects.length < p.config.suspectQueueCapacity
      · exact ⟨_, by
          simp only [recast, offerSuspect, hfails, hstopped, hroom, if_true, if_false, ne_eq,
            not_false_eq_true, and_self]
          rfl⟩
      · exact ⟨_, by
          simp only [recast, offerSuspect, hfails, hstopped, hroom, if_true, if_false, and_false]
          rfl⟩
  · exact ⟨journal, by simp [recast, hfails]⟩

theorem exists_failDial_recast (s : Shard) (now : Duration) (journal : List Entry)
    (hi : i < p.shards.length) (e : PoolError) : ∃ journal',
    (p.recast i s now journal).failDial i e =
      ({ p with suspects := p.suspectsAfter i (s.fails + 1) } : Pool).recast i
        (({ s with fails := s.fails + 1 } : Shard).count Tally.countDialError).releaseSlot now
        journal' := by
  obtain ⟨journal', hfailure⟩ := exists_recordFailure_recast s now journal hi
  rw [failDial, hfailure, count_recast, modifyShard_recast]
  exact ⟨_, rfl⟩

end Recast

section Account

variable {p q : Pool} {i : Nat} {s : Shard} {now : Duration} {journal : List Entry} {c : ConnId}
  {rest : List ConnId} {xs ys : List Exchange} {result : Except PoolError ConnId}

/-- One more connection turned down before the others. -/
theorem Accounts.cons {r : Rejection} (hidle : s.idle = r.conn :: rest)
    (hrejects : ∀ rs later, p.Rejects r.closed rs later → p.Rejects now (r :: rs) later)
    (haccounts : p.Accounts i
      { s with
        idle := rest
        tally :=
          { s.tally with
            evictions := s.tally.evictions + if r.isEviction then 1 else 0
            closes := s.tally.closes + 1 } } r.closed xs q result) :
    p.Accounts i s now (r.exchanges ++ xs) q result := by
  obtain ⟨rejected, rest', later, ys, hrest, hlater, hxs, hconcludes⟩ := haccounts
  refine ⟨r :: rejected, rest', later, ys, ?_, hrejects _ _ hlater, ?_, ?_⟩
  · rw [hidle, List.map_cons, List.cons_append, ← hrest]
  · rw [hxs, List.flatMap_cons, List.append_assoc]
  · rw [List.countP_cons, List.length_cons, Nat.add_comm (List.countP _ _),
      Nat.add_comm rejected.length, ← Nat.add_assoc, ← Nat.add_assoc]
    exact hconcludes

/-- A shard that turns nothing down. -/
theorem Accounts.of_concludes
    (hconcludes : p.Concludes i s now xs { q with journal := p.journal } result) :
    p.Accounts i s now xs q result :=
  ⟨[], s.idle, now, xs, rfl, .nil now, rfl, hconcludes⟩

/-- Once the queue is dry, the limit decides between a dial and a refusal. -/
theorem accounts_of_dry (hi : i < p.shards.length) (hidle : s.idle = [])
    (hends : (borrowing i).Ends ((p.recast i s now journal).serve i) xs q result) :
    p.Accounts i s now xs q result := by
  rw [serve_recast_nil hi hidle] at hends
  refine .of_concludes ?_
  split at hends
  · rename_i hroom
    have hroom : p.config.maxActive = 0 ∨ s.active < p.config.maxActive := by
      simpa [Shard.hasRoom] using hroom
    obtain ⟨⟨call, time, reply⟩, ys, rfl, rfl, htime, hends⟩ := Activity.ends_waits_iff.mp hends
    rw [setTime_recast] at hends
    have hcall : (borrowing i).call
        (p.recast i (s.occupySlot.count Tally.countDial) now journal) .dialing =
          .dial i s.address := by
      simp only [borrowing, Borrowing.call, shard_recast hi]
      rfl
    cases reply with
    | ok =>
      obtain ⟨journal', hadopt⟩ := exists_adopt_recast p i
        (s.occupySlot.count Tally.countDial) time journal
      obtain ⟨rfl, rfl, rfl⟩ := Activity.ends_done_iff.mp hends
      rw [hcall, hadopt]
      exact .dialed hidle hroom htime
    | error e =>
      obtain ⟨journal', hfail⟩ := exists_failDial_recast
        (s.occupySlot.count Tally.countDial) time journal hi e
      obtain ⟨rfl, rfl, rfl⟩ := Activity.ends_done_iff.mp hends
      rw [hcall, hfail]
      exact .failed hidle hroom htime
  · rename_i hroom
    have hfull : 0 < p.config.maxActive ∧ p.config.maxActive ≤ s.active := by
      simp only [Shard.hasRoom, Bool.or_eq_true, beq_iff_eq, decide_eq_true_iff] at hroom
      omega
    obtain ⟨rfl, rfl, rfl⟩ := Activity.ends_done_iff.mp hends
    exact .exhausted hidle hfull.1 hfull.2

/-- A get that waits for a connection to close serves itself from the queue again. -/
theorem ends_discarding_iff :
    (borrowing i).Ends (p.recast i s now journal, .waits (.discarding c)) xs q result ↔
      ∃ closed reply ys journal', xs = ⟨.close (.own c), closed, reply⟩ :: ys ∧ now ≤ closed ∧
        (p.recast i s closed journal).noteIdleClose i reply = p.recast i s closed journal' ∧
        (borrowing i).Ends ((p.recast i s closed journal').serve i) ys q result := by
  constructor
  · intro hends
    obtain ⟨⟨call, closed, reply⟩, ys, rfl, rfl, hclosed, hends⟩ :=
      Activity.ends_waits_iff.mp hends
    obtain ⟨journal', hnote⟩ := exists_noteIdleClose_recast p i s closed journal reply
    simp only [setTime_recast, borrowing, resumeBorrow, hnote] at hends
    exact ⟨closed, reply, ys, journal', rfl, hclosed, hnote, hends⟩
  · rintro ⟨closed, reply, ys, journal', rfl, hclosed, hnote, hends⟩
    rw [← hnote] at hends
    exact .waits rfl hclosed hends

/-- What a get at a shard does up to its end. -/
theorem accounts_of_ends (hi : i < p.shards.length)
    (hends : (borrowing i).Ends ((p.recast i s now journal).serve i) xs q result) :
    p.Accounts i s now xs q result := by
  generalize hidle : s.idle = idle at *
  induction idle generalizing s now journal xs with
  | nil => exact accounts_of_dry hi hidle hends
  | cons c rest ih =>
    by_cases hold : p.Outdated now c
    · rw [serve_recast_outdated hi hidle hold] at hends
      obtain ⟨closed, reply, ys, journal', rfl, hclosed, -, hends⟩ := ends_discarding_iff.mp hends
      exact Accounts.cons (r := ⟨c, none, closed, reply⟩) hidle
        (fun rs later hrest => .outdated hold rfl hclosed hrest) (ih hends rfl)
    rw [serve_recast_fresh hi hidle hold] at hends
    split at hends
    · rename_i htest
      obtain ⟨⟨call, time, verdict⟩, ys, rfl, rfl, htime, hends⟩ :=
        Activity.ends_waits_iff.mp hends
      cases verdict with
      | ok =>
        simp only [setTime_recast, borrowing, resumeBorrow, lend_recast] at hends
        obtain ⟨rfl, rfl, rfl⟩ := Activity.ends_done_iff.mp hends
        exact .of_concludes (.valid hidle hold htest htime)
      | error e =>
        simp only [setTime_recast, borrowing, resumeBorrow, note_recast, discard,
          count_recast] at hends
        obtain ⟨closed, reply, ys, journal', rfl, hclosed, -, hends⟩ :=
          ends_discarding_iff.mp hends
        exact Accounts.cons (r := ⟨c, some (time, e), closed, reply⟩) hidle
          (fun rs later hrest => .invalid hold htest rfl htime hclosed hrest) (ih hends rfl)
    · rename_i htest
      obtain ⟨rfl, rfl, rfl⟩ := Activity.ends_done_iff.mp hends
      rw [lend_recast]
      exact .of_concludes (.fresh hidle hold (by simpa using htest))

private theorem halts_discarding
    (hserve : ∀ closed journal, (borrowing i).Halts ((p.recast i s closed journal).serve i)) :
    (borrowing i).Halts (p.recast i s now journal, .waits (.discarding c)) := by
  refine .waits fun closed _ reply => ?_
  obtain ⟨journal', hnote⟩ := exists_noteIdleClose_recast p i s closed journal reply
  simp only [setTime_recast, borrowing, resumeBorrow, hnote]
  exact hserve closed journal'

/-- A get at a shard comes to its end: every connection in the queue is turned down at most once,
and a dial is the last thing it does. -/
theorem halts_serve (hi : i < p.shards.length) :
    (borrowing i).Halts ((p.recast i s now journal).serve i) := by
  generalize hidle : s.idle = idle at *
  induction idle generalizing s now journal with
  | nil =>
    rw [serve_recast_nil hi hidle]
    split
    · refine .waits fun time _ reply => ?_
      cases reply <;> exact .done _ _
    · exact .done _ _
  | cons c rest ih =>
    by_cases hold : p.Outdated now c
    · rw [serve_recast_outdated hi hidle hold]
      exact halts_discarding fun closed journal => ih rfl
    rw [serve_recast_fresh hi hidle hold]
    split
    · refine .waits fun time _ verdict => ?_
      cases verdict with
      | ok => exact .done _ _
      | error e =>
        simp only [setTime_recast, borrowing, resumeBorrow, note_recast, discard, count_recast]
        exact halts_discarding fun closed journal => ih rfl
    · exact .done _ _

/-- A reply that is not to a close is the same in exchanges that differ at most there. -/
theorem forall₂_alike_cons {x : Exchange} (hclose : ∀ t, x.call ≠ .close t)
    (halike : List.Forall₂ Exchange.AlikeButClose (x :: xs) ys) :
    ∃ rest, List.Forall₂ Exchange.AlikeButClose xs rest ∧ ys = x :: rest := by
  obtain ⟨⟨call, time, reply⟩, rest, ⟨rfl, rfl, hreply⟩, hrest, rfl⟩ :=
    List.forall₂_cons_left_iff.mp halike
  refine ⟨rest, hrest, ?_⟩
  obtain rfl | ⟨t, ht⟩ := hreply
  · rfl
  · exact absurd ht (hclose t)

private theorem ends_discarding_alike (journal' : List Entry)
    (hends : (borrowing i).Ends (p.recast i s now journal, .waits (.discarding c)) xs q result)
    (halike : List.Forall₂ Exchange.AlikeButClose xs ys)
    (hserve : ∀ closed journal journal' xs ys,
      (borrowing i).Ends ((p.recast i s closed journal).serve i) xs q result →
      List.Forall₂ Exchange.AlikeButClose xs ys → ∃ last,
        (borrowing i).Ends ((p.recast i s closed journal').serve i) ys { q with journal := last }
          result) :
    ∃ last, (borrowing i).Ends (p.recast i s now journal', .waits (.discarding c)) ys
      { q with journal := last } result := by
  obtain ⟨closed, reply, xs, journal₁, rfl, hclosed, -, hends⟩ := ends_discarding_iff.mp hends
  obtain ⟨⟨call, time, reply'⟩, ys, ⟨hcall, htime, -⟩, hrest, rfl⟩ :=
    List.forall₂_cons_left_iff.mp halike
  dsimp only at hcall htime
  subst call time
  obtain ⟨journal₂, hnote⟩ := exists_noteIdleClose_recast p i s closed journal' reply'
  obtain ⟨last, hlast⟩ := hserve closed journal₁ journal₂ xs ys hends hrest
  exact ⟨last, ends_discarding_iff.mpr ⟨closed, reply', ys, journal₂, rfl, hclosed, hnote, hlast⟩⟩

private theorem ends_dry_alike {journal' : List Entry} (hi : i < p.shards.length)
    (hidle : s.idle = [])
    (hends : (borrowing i).Ends ((p.recast i s now journal).serve i) xs q result)
    (halike : List.Forall₂ Exchange.AlikeButClose xs ys) :
    ∃ last, (borrowing i).Ends ((p.recast i s now journal').serve i) ys { q with journal := last }
      result := by
  rw [serve_recast_nil hi hidle] at hends ⊢
  split at hends
  · rename_i hroom
    obtain ⟨⟨call, time, reply⟩, xs, rfl, rfl, htime, hends⟩ := Activity.ends_waits_iff.mp hends
    obtain ⟨ys, hrest, rfl⟩ := forall₂_alike_cons
      (fun t (hclose : Call.dial _ _ = .close t) => nomatch hclose) halike
    rw [if_pos hroom]
    have hcall : Borrowing.call (p.recast i (s.occupySlot.count Tally.countDial) now journal) i
        .dialing = Borrowing.call (p.recast i (s.occupySlot.count Tally.countDial) now journal') i
          .dialing := by
      simp only [Borrowing.call, shard_recast hi]
    cases reply with
    | ok =>
      obtain ⟨last, hadopt⟩ := exists_adopt_recast p i
        (s.occupySlot.count Tally.countDial) time journal
      obtain ⟨last', hadopt'⟩ := exists_adopt_recast p i
        (s.occupySlot.count Tally.countDial) time journal'
      simp only [setTime_recast, borrowing, resumeBorrow, hadopt] at hends
      obtain ⟨rfl, rfl, rfl⟩ := Activity.ends_done_iff.mp hends
      cases hrest
      refine ⟨last', .waits hcall htime ?_⟩
      simp only [setTime_recast, borrowing, resumeBorrow, hadopt']
      exact .done _ _
    | error e =>
      obtain ⟨last, hfail⟩ := exists_failDial_recast
        (s.occupySlot.count Tally.countDial) time journal hi e
      obtain ⟨last', hfail'⟩ := exists_failDial_recast
        (s.occupySlot.count Tally.countDial) time journal' hi e
      simp only [setTime_recast, borrowing, resumeBorrow, hfail] at hends
      obtain ⟨rfl, rfl, rfl⟩ := Activity.ends_done_iff.mp hends
      cases hrest
      refine ⟨last', .waits hcall htime ?_⟩
      simp only [setTime_recast, borrowing, resumeBorrow, hfail']
      exact .done _ _
  · rename_i hroom
    obtain ⟨rfl, rfl, rfl⟩ := Activity.ends_done_iff.mp hends
    cases halike
    rw [if_neg hroom]
    exact ⟨journal', .done _ _⟩

/-- What the factory says to the closes has no bearing on a get at a shard. -/
theorem ends_serve_alike {journal' : List Entry} (hi : i < p.shards.length)
    (hends : (borrowing i).Ends ((p.recast i s now journal).serve i) xs q result)
    (halike : List.Forall₂ Exchange.AlikeButClose xs ys) :
    ∃ last, (borrowing i).Ends ((p.recast i s now journal').serve i) ys { q with journal := last }
      result := by
  generalize hidle : s.idle = idle at *
  induction idle generalizing s now journal journal' xs ys with
  | nil => exact ends_dry_alike hi hidle hends halike
  | cons c rest ih =>
    by_cases hold : p.Outdated now c
    · rw [serve_recast_outdated hi hidle hold] at hends ⊢
      exact ends_discarding_alike _ hends halike fun _ _ _ _ _ hends halike => ih hends halike rfl
    rw [serve_recast_fresh hi hidle hold] at hends ⊢
    split at hends
    · rename_i htest
      obtain ⟨⟨call, time, verdict⟩, xs, rfl, rfl, htime, hends⟩ :=
        Activity.ends_waits_iff.mp hends
      obtain ⟨ys, hrest, rfl⟩ := forall₂_alike_cons
        (fun t (hclose : Call.validate (.own c) = .close t) => nomatch hclose) halike
      rw [if_pos htest]
      cases verdict with
      | ok =>
        simp only [setTime_recast, borrowing, resumeBorrow, lend_recast] at hends
        obtain ⟨rfl, rfl, rfl⟩ := Activity.ends_done_iff.mp hends
        cases hrest
        refine ⟨journal', .waits rfl htime ?_⟩
        simp only [setTime_recast, borrowing, resumeBorrow, lend_recast]
        exact .done _ _
      | error e =>
        simp only [setTime_recast, borrowing, resumeBorrow, note_recast, discard,
          count_recast] at hends
        obtain ⟨last, hlast⟩ := ends_discarding_alike
          (.event (.validationFailed
            ((p.recast i { s with idle := rest } time journal').shard i).address e) :: journal')
          hends hrest fun _ _ _ _ _ hends halike => ih hends halike rfl
        refine ⟨last, .waits rfl htime ?_⟩
        simp only [setTime_recast, borrowing, resumeBorrow, note_recast, discard, count_recast]
        exact hlast
    · rename_i htest
      obtain ⟨rfl, rfl, rfl⟩ := Activity.ends_done_iff.mp hends
      cases halike
      rw [if_neg htest, lend_recast, lend_recast]
      exact ⟨journal', .done _ _⟩

/-- A get at an open shard counts itself and serves itself from the queue. -/
theorem borrow_of_open (hi : i < p.shards.length) (hopen : (p.shard i).closed = false) :
    p.borrow i = (p.recast i ((p.shard i).count Tally.countGet) p.now p.journal).serve i := by
  rw [← count_recast, recast_self hi, borrow, hopen]
  rfl

end Account

/-- A get at an open shard with nobody else around comes to an end on every factory. It turns down
idle connections from the head of the queue on, lends the first that is neither too old nor fails
its validation, and only without one dials or is refused at the limit. What the factory says to the
closes changes nothing. -/
theorem borrow_spec {p : Pool} {i : Nat} (hi : i < p.shards.length)
    (hopen : (p.shard i).closed = false) :
    (∀ f : Factory, ∃ xs q result,
      (borrowing i).Ends (p.borrow i) xs q result ∧ f.Makes [] p.now xs) ∧
    (∀ xs q result, (borrowing i).Ends (p.borrow i) xs q result →
      p.Accounts i
        { p.shard i with
          tally := { (p.shard i).tally with gets := (p.shard i).tally.gets + 1 } }
        p.now xs q result) ∧
    ∀ xs ys q result, (borrowing i).Ends (p.borrow i) xs q result →
      List.Forall₂ Exchange.AlikeButClose xs ys →
      ∃ journal, (borrowing i).Ends (p.borrow i) ys { q with journal } result := by
  rw [borrow_of_open hi hopen]
  refine ⟨fun f => ?_, fun xs q result hends => accounts_of_ends hi hends,
    fun xs ys q result hends halike => ends_serve_alike hi hends halike⟩
  obtain ⟨xs, q, result, hends, hmakes⟩ := (halts_serve hi).exists_ends f []
  rw [now_serve] at hmakes
  exact ⟨xs, q, result, hends, hmakes⟩

/-- One idle connection that is too old and whose close fails, one that is not valid any more, and
one that is lent. -/
theorem borrow_spec_three :
    ∃ p : Pool, 0 < p.shards.length ∧ (p.shard 0).closed = false ∧ (p.shard 0).idle = [0, 1, 2] ∧
      ∃ xs q, xs.map Exchange.call = [.close (.own 0), .validate (.own 1), .close (.own 1),
          .validate (.own 2)] ∧
        (borrowing 0).Ends (p.borrow 0) xs q (.ok 2) ∧
        p.Accounts 0 { p.shard 0 with tally := { gets := 1 } } p.now xs q (.ok 2) := by
  let p : Pool :=
    { config := { idleTimeout := some ⟨5⟩, testOnBorrow := true }
      shards := [{ address := "a:1", idle := [0, 1, 2] }]
      conns := [⟨0, false, .zero⟩, ⟨0, false, ⟨7⟩⟩, ⟨0, false, ⟨7⟩⟩]
      numAvailable := 1
      now := ⟨8⟩ }
  have hends : ∃ q, (borrowing 0).Ends (p.borrow 0)
      [⟨.close (.own 0), ⟨9⟩, .error (.backend "gone")⟩,
        ⟨.validate (.own 1), ⟨9⟩, .error (.unhealthy "PING")⟩,
        ⟨.close (.own 1), ⟨10⟩, .ok ()⟩,
        ⟨.validate (.own 2), ⟨10⟩, .ok ()⟩] q (.ok 2) :=
    ⟨_, .of_waits (s := .discarding 0) rfl rfl (by decide) <|
      .of_waits (s := .validating 1) rfl rfl (by decide) <|
      .of_waits (s := .discarding 1) rfl rfl (by decide) <|
      .of_waits (s := .validating 2) rfl rfl (by decide) <| .of_done rfl⟩
  obtain ⟨q, hends⟩ := hends
  exact ⟨p, by decide, rfl, rfl, _, q, rfl, hends,
    (borrow_spec (p := p) (i := 0) (by decide) rfl).2.1 _ _ _ hends⟩

end Pool

end QuorumPool
