import Mathlib.Data.List.DropRight
import QuorumPool.Proofs.Answers
import QuorumPool.Proofs.Outcomes

namespace QuorumPool

section Streaks

/-- How many failures came after the last success, among outcomes of which `true` is a failure. -/
def streak (os : List Bool) : Nat := (os.rtakeWhile id).length

/-- How often there were so many failures in a row: the outcomes fall into runs of failures with a
success between any two, and each run that is long enough counts once. -/
def longStreaks (n : Nat) (os : List Bool) : Nat :=
  (os.splitOn false).countP fun failures => n ≤ failures.length

theorem streak_concat (os : List Bool) (failed : Bool) :
    streak (os ++ [failed]) = if failed then streak os + 1 else 0 := by
  cases failed <;> simp [streak]

/-- The failures that came last are the last run of them, and more failures make it longer. -/
theorem exists_splitOn_eq (os : List Bool) : ∃ runs, ∀ n,
    (os ++ List.replicate n true).splitOn false = runs ++ [List.replicate (streak os + n) true] := by
  have hlast (n : Nat) : (List.replicate n true).splitOn false = [List.replicate n true] := by
    rw [List.splitOn_eq_splitOnP]
    apply List.splitOnP_eq_singleton
    intro failed hfailed
    rw [List.eq_of_mem_replicate hfailed]
    rfl
  induction os using List.reverseRecOn with
  | nil => exact ⟨[], fun n => by simpa [streak] using hlast n⟩
  | append_singleton os failed ih =>
    cases failed with
    | true =>
      obtain ⟨runs, hruns⟩ := ih
      refine ⟨runs, fun n => ?_⟩
      rw [List.append_assoc, List.singleton_append, ← List.replicate_succ, hruns, streak_concat,
        if_pos rfl, Nat.add_right_comm, Nat.add_assoc]
    | false =>
      refine ⟨os.splitOn false, fun n => ?_⟩
      rw [List.append_assoc, List.singleton_append, List.splitOn_eq_splitOnP,
        List.splitOnP_append_cons _ _ (by rfl), ← List.splitOn_eq_splitOnP,
        ← List.splitOn_eq_splitOnP, hlast, streak_concat]
      simp

/-- A run of failures becomes a long one with one failure of it. -/
theorem longStreaks_concat {n : Nat} (hn : 0 < n) (os : List Bool) (failed : Bool) :
    longStreaks n (os ++ [failed]) =
      longStreaks n os + if failed = true ∧ streak os + 1 = n then 1 else 0 := by
  unfold longStreaks
  cases failed with
  | true =>
    obtain ⟨runs, hruns⟩ := exists_splitOn_eq os
    have hnow := hruns 0
    have hnext := hruns 1
    rw [List.replicate_zero, List.append_nil] at hnow
    rw [List.replicate_one] at hnext
    rw [hnow, hnext, List.countP_append, List.countP_append, List.countP_singleton,
      List.countP_singleton, List.length_replicate, List.length_replicate]
    simp only [decide_eq_true_eq, true_and]
    split <;> split <;> split <;> omega
  | false =>
    rw [List.splitOn_eq_splitOnP, List.splitOnP_append_cons os [] (by rfl), List.countP_append,
      List.splitOn_eq_splitOnP]
    simp [hn.ne']

end Streaks

namespace Pool

section Echoes

variable {σ α : Type} {p q r : Pool} {i : Nat}

/-- The same pool, but for what its suspect queue holds and what it has written down. -/
def Echoes (p q : Pool) : Prop := ∃ suspects journal, q = { p with suspects, journal }

/-- A step of each of two pools that comes to the same. -/
structure Echoing (v w : Pool × Progress σ α) : Prop where
  pool : v.1.Echoes w.1
  progress : w.2 = v.2

theorem Echoing.exists_eq {v w : Pool × Progress σ α} (hvw : Echoing v w) :
    ∃ r s suspects journal, v = (r, s) ∧ w = ({ r with suspects, journal }, s) := by
  obtain ⟨r, s⟩ := v
  obtain ⟨_, _⟩ := w
  obtain ⟨⟨suspects, journal, hpool⟩, hprogress⟩ := hvw
  exact ⟨r, s, suspects, journal, rfl, Prod.ext hpool hprogress⟩

namespace Echoes

theorem refl (p : Pool) : p.Echoes p := ⟨p.suspects, p.journal, rfl⟩

theorem symm (hpq : p.Echoes q) : q.Echoes p := by
  obtain ⟨suspects, journal, rfl⟩ := hpq
  exact ⟨p.suspects, p.journal, rfl⟩

theorem trans (hpq : p.Echoes q) (hqr : q.Echoes r) : p.Echoes r := by
  obtain ⟨suspects, journal, rfl⟩ := hpq
  obtain ⟨suspects', journal', rfl⟩ := hqr
  exact ⟨suspects', journal', rfl⟩

/-- What becomes of an offer to the suspect queue is nothing to the rest of the pool. -/
theorem offerSuspect (p : Pool) (i : Nat) : p.Echoes (p.offerSuspect i) := by
  unfold Pool.offerSuspect
  dsimp only
  split
  · exact refl p
  split <;> exact ⟨_, _, rfl⟩

theorem recordOutcome (hpq : p.Echoes q) (i : Nat) (failed : Bool) :
    (p.recordOutcome i failed).Echoes (q.recordOutcome i failed) := by
  -- An outcome counts, and the offer that may follow it changes nothing here.
  have hrecord (r : Pool) : (r.modifyShard i fun s =>
      { s with fails := tallied (some (i, failed)) i s.fails }).Echoes
        (r.recordOutcome i failed) := by
    cases failed with
    | false => exact ⟨r.suspects, r.journal, by simp [Pool.recordOutcome, tallied, modifyShard]⟩
    | true =>
      simp only [Pool.recordOutcome, tallied, if_true]
      split
      · exact offerSuspect _ i
      · exact refl _
  obtain ⟨suspects, journal, rfl⟩ := hpq
  refine (hrecord p).symm.trans (trans ?_ (hrecord _))
  exact ⟨suspects, journal, rfl⟩

theorem failDial (hpq : p.Echoes q) (i : Nat) (e : PoolError) :
    (p.failDial i e).Echoes (q.failDial i e) := by
  obtain ⟨suspects, journal, hrecord⟩ := hpq.recordOutcome i true
  unfold Pool.failDial
  rw [hrecord]
  exact ⟨_, _, rfl⟩

theorem serve (hpq : p.Echoes q) (i : Nat) : Echoing (p.serve i) (q.serve i) := by
  obtain ⟨suspects, journal, rfl⟩ := hpq
  have hshard : shard { p with suspects, journal } i = p.shard i := rfl
  have hstale (c : ConnId) : (Pool.dropIdle { p with suspects, journal } i).isStale c =
      (p.dropIdle i).isStale c := rfl
  unfold Pool.serve
  dsimp only
  simp only [hshard]
  split
  · simp only [hstale]
    split
    · exact ⟨⟨_, _, rfl⟩, rfl⟩
    have htest : (Pool.dropIdle { p with suspects, journal } i).config.testOnBorrow =
      (p.dropIdle i).config.testOnBorrow := rfl
    simp only [htest]
    split <;> exact ⟨⟨_, _, rfl⟩, rfl⟩
  · split <;> exact ⟨⟨_, _, rfl⟩, rfl⟩

theorem borrow (hpq : p.Echoes q) (i : Nat) : Echoing (p.borrow i) (q.borrow i) := by
  obtain ⟨suspects, journal, rfl⟩ := hpq
  have hshard : shard { p with suspects, journal } i = p.shard i := rfl
  unfold Pool.borrow
  simp only [hshard]
  split
  · exact ⟨⟨_, _, rfl⟩, rfl⟩
  · exact serve ⟨_, _, rfl⟩ i

theorem passOver (hpq : p.Echoes q) (i attempt : Nat) (e : PoolError) :
    (p.passOver i attempt e).Echoes (q.passOver i attempt e) := by
  obtain ⟨suspects, journal, rfl⟩ := hpq
  exact ⟨_, _, rfl⟩

theorem visit (hpq : p.Echoes q) (start attempt left : Nat) :
    Echoing (p.visit start attempt left) (q.visit start attempt left) := by
  induction left generalizing p q attempt with
  | zero =>
    obtain ⟨suspects, journal, rfl⟩ := hpq
    exact ⟨⟨_, _, rfl⟩, rfl⟩
  | succ left ih =>
    have hvisited : q.visited start attempt = p.visited start attempt := by
      obtain ⟨suspects, journal, rfl⟩ := hpq
      rfl
    have havailable : (q.shard (p.visited start attempt)).available =
        (p.shard (p.visited start attempt)).available := by
      obtain ⟨suspects, journal, rfl⟩ := hpq
      rfl
    obtain ⟨r, w, suspects, journal, hp, hq⟩ := (hpq.borrow (p.visited start attempt)).exists_eq
    have hr : r.Echoes { r with suspects, journal } := ⟨suspects, journal, rfl⟩
    simp only [Pool.visit, hvisited, havailable, hp, hq]
    split
    · rcases w with s | e | c
      · exact ⟨hr, rfl⟩
      · exact ih (hr.passOver ..) _
      · exact ⟨hr, rfl⟩
    · apply ih
      obtain ⟨suspects, journal, rfl⟩ := hpq
      exact ⟨_, _, rfl⟩

/-- A get goes on from a dial that failed. -/
theorem resumeGet (hpq : p.Echoes q) (start attempt : Nat) (e : PoolError) :
    Echoing (p.resumeGet ⟨start, attempt, .dialing⟩ (.error e))
      (q.resumeGet ⟨start, attempt, .dialing⟩ (.error e)) := by
  have hvisited : q.visited start attempt = p.visited start attempt := by
    obtain ⟨suspects, journal, rfl⟩ := hpq
    rfl
  have hfail := hpq.failDial (p.visited start attempt) e
  have hretry : (q.failDial (p.visited start attempt) e).maxRetry =
      (p.failDial (p.visited start attempt) e).maxRetry := by
    obtain ⟨suspects, journal, heq⟩ := hfail
    rw [heq]
    rfl
  simp only [Pool.resumeGet, resumeBorrow, hvisited, hretry]
  exact (hfail.passOver ..).visit ..

theorem reclaim (hpq : p.Echoes q) (i : Nat) (c : ConnId) (broken : Bool) :
    (p.reclaim i c broken).Echoes (q.reclaim i c broken) := by
  have hconn : (p.modifyConn c fun conn =>
      { conn with borrowed := false, lastUsed := p.now }).Echoes (q.modifyConn c fun conn =>
        { conn with borrowed := false, lastUsed := q.now }) := by
    obtain ⟨suspects, journal, rfl⟩ := hpq
    exact ⟨_, _, rfl⟩
  obtain ⟨suspects, journal, hrecord⟩ := hconn.recordOutcome i broken
  unfold Pool.reclaim
  dsimp only
  rw [hrecord]
  exact ⟨_, _, rfl⟩

theorem put (hpq : p.Echoes q) (c : ConnId) (broken : Bool) :
    Echoing (p.put c broken) (q.put c broken) := by
  have hconns : q.conns = p.conns := by
    obtain ⟨suspects, journal, rfl⟩ := hpq
    rfl
  unfold Pool.put
  rw [hconns]
  split
  · rename_i i _ _
    obtain ⟨suspects, journal, hreclaim⟩ := hpq.reclaim i c broken
    have hshard : shard { p.reclaim i c broken with suspects, journal } i =
        (p.reclaim i c broken).shard i := rfl
    dsimp only
    simp only [hreclaim, hshard]
    split
    · exact ⟨⟨_, _, rfl⟩, rfl⟩
    split <;> exact ⟨⟨_, _, rfl⟩, rfl⟩
  · exact ⟨hpq, rfl⟩

theorem askFor (hpq : p.Echoes q) (t : Task) : (p.askFor t).Echoes (q.askFor t) := by
  have hself (r : Pool) : r.Echoes (r.askFor t) := by
    unfold Pool.askFor
    split
    · exact ⟨_, _, rfl⟩
    · exact refl r
  exact ((hself p).symm.trans hpq).trans (hself q)

end Echoes

theorem Echoing.map {τ β : Type} {v w : Pool × Progress σ α} (hvw : Echoing v w) (f : σ → τ)
    (g : α → β) : Echoing (v.map id (·.map f g)) (w.map id (·.map f g)) :=
  ⟨hvw.pool, congrArg (·.map f g) hvw.progress⟩

theorem Echoing.start (request : Request)
    (hbegin : Echoing (p.begin request) (q.begin request)) :
    Echoing (p.start request) (q.start request) := by
  obtain ⟨r, w, suspects, journal, hp, hq⟩ := hbegin.exists_eq
  simp only [Pool.start, hp, hq]
  cases w with
  | waits t => exact ⟨Echoes.askFor ⟨_, _, rfl⟩ t, rfl⟩
  | done a => exact ⟨⟨_, _, rfl⟩, rfl⟩

theorem Echoing.resume {id : TaskId} {t : Task} {reply : Reply} (hp : p.task? id = some t)
    (hq : q.task? id = some t) (hadvance : Echoing (p.advance t reply) (q.advance t reply)) :
    (p.resume id reply).1.Echoes (q.resume id reply).1 ∧
      (q.resume id reply).2 = (p.resume id reply).2 := by
  obtain ⟨r, w, suspects, journal, hp', hq'⟩ := hadvance.exists_eq
  simp only [Pool.resume, hp, hq, hp', hq']
  cases w with
  | waits t => exact ⟨Echoes.askFor ⟨_, _, rfl⟩ t, rfl⟩
  | done a => exact ⟨⟨_, _, rfl⟩, rfl⟩

/-- A task whose step is a failure is a get that waits for a dial. -/
theorem exists_dialing_of_failure {id : TaskId} {reply : Reply}
    (hfailure : p.outcome? (.resume id reply) = some (i, true)) : ∃ start attempt e,
      p.task? id = some (.get ⟨start, attempt, .dialing⟩) ∧ reply = .error e := by
  unfold outcome? at hfailure
  dsimp only at hfailure
  split at hfailure
  · cases hfailure
  · rename_i hcall
    obtain ⟨t, ht, hdials⟩ := Option.bind_eq_some_iff.mp hcall
    cases t with
    | get g =>
      obtain ⟨start, attempt, b⟩ := g
      cases b with
      | dialing => exact ⟨start, attempt, _, ht, rfl⟩
      | discarding | validating => cases hdials
    | put | strayPut => cases hdials
    | verdict v => cases v <;> cases hdials
    | check c =>
      obtain ⟨address, attempt, checking⟩ := c
      cases checking <;> cases hdials
    | shutdown s => cases s <;> cases hdials
  · cases hfailure

/-- A failure makes the same of the pool and has the same answer, whatever the suspect queue holds
and whether the shard is taken there. -/
theorem Echoes.act {a : Action} (hpq : p.Echoes q) (hfailure : p.outcome? a = some (i, true)) :
    (p.act a).Echoes (q.act a) ∧ q.answer? a = p.answer? a := by
  cases a with
  | start request =>
    cases request with
    | put c broken =>
      have hbegin := (hpq.put c broken).map (fun _ => Task.put c) answerPut
      obtain ⟨hpool, hprogress⟩ := Echoing.start (.put c broken) hbegin
      refine ⟨hpool, ?_⟩
      unfold answer?
      dsimp only
      rw [hprogress]
    | get | strayPut | mark | check | shutdown => cases hfailure
  | resume id reply =>
    obtain ⟨start, attempt, e, ht, rfl⟩ := exists_dialing_of_failure hfailure
    have ht' : q.task? id = some (.get ⟨start, attempt, .dialing⟩) := by
      obtain ⟨suspects, journal, rfl⟩ := hpq
      exact ht
    exact Echoing.resume ht ht' ((hpq.resumeGet start attempt e).map Task.get answerGet)
  | turn | resumeChecker | setTime | takeStats | takeShardStats | abandon => cases hfailure

end Echoes

section Run

variable {p : Pool} {as : List Action} {i : Nat}

private theorem tallied_streak (p : Pool) (a : Action) (i : Nat) (os : List Bool) :
    tallied (p.outcome? a) i (streak os) = streak (os ++ outcomes i p a) := by
  unfold tallied outcomes
  rcases p.outcome? a with - | ⟨j, failed⟩
  · simp
  · by_cases hji : j = i
    · simp [hji, streak_concat]
    · simp [hji]

/-- The failure count of a shard is the length of the streak of failures that it is in. -/
theorem fails_after (hwf : p.WellFormed) (hfresh : ∀ i, (p.shard i).fails = 0) (as : List Action)
    (i : Nat) : ((p.after as).shard i).fails = streak (along (outcomes i) p as) := by
  induction as using List.reverseRecOn with
  | nil => exact hfresh i
  | append_singleton as a ih =>
    rw [after_concat, along_concat, (informs_act (hwf.after as) a).fails, ih, tallied_streak]

theorem count_offers (p : Pool) (a : Action) (i : Nat) : (p.offers a).count i =
    if p.outcome? a = some (i, true) ∧ (p.shard i).fails + 1 = p.config.maxFails then 1 else 0 := by
  unfold offers crossing
  split
  · rename_i j ho
    rw [ho]
    by_cases hji : j = i
    · subst hji
      simp only [true_and]
      split <;> simp
    · simp only [Option.some.injEq, Prod.mk.injEq, hji, false_and, if_false]
      split <;> simp [hji]
  · rename_i ho
    simp [ho]
  · rename_i ho
    simp [ho]

private theorem mem_offers_iff {a : Action} : i ∈ p.offers a ↔
    p.outcome? a = some (i, true) ∧ (p.shard i).fails + 1 = p.config.maxFails := by
  rw [← List.count_pos_iff, count_offers]
  split <;> simp_all

/-- A shard is offered to the suspect queue once for each streak of failures that gets as long as
the threshold. -/
theorem count_offers_after (hwf : p.WellFormed) (hfresh : ∀ i, (p.shard i).fails = 0)
    (hpos : 0 < p.config.maxFails) (as : List Action) (i : Nat) :
    (along offers p as).count i =
      longStreaks p.config.maxFails (along (outcomes i) p as) := by
  induction as using List.reverseRecOn with
  | nil => simp [along, longStreaks, hpos.ne']
  | append_singleton as a ih =>
    have hfails := fails_after hwf hfresh as i
    have hconfig := (abides_after p as).config
    rw [along_concat, along_concat, List.count_append, ih, count_offers, hfails, hconfig]
    unfold outcomes
    rcases (p.after as).outcome? a with - | ⟨j, failed⟩
    · simp
    · by_cases hji : j = i
      · simp [hji, longStreaks_concat hpos]
      · simp [hji]

/-- What a run `as` of a pool does to its failure counts and, with them, to its suspect queue, and
what any further action does. -/
structure Signals (p : Pool) (as : List Action) : Prop where
  /-- A shard counts the failures since its last success. -/
  fails : ∀ i, ((p.after as).shard i).fails = streak (along (outcomes i) p as)
  /-- It is suspect while they are enough. -/
  suspect : ∀ i, ((p.after as).shard i).isSuspect p.config.maxFails = true ↔
    p.config.maxFails ≤ streak (along (outcomes i) p as)
  /-- Nothing but an outcome of the shard touches its count. -/
  untold : ∀ a i, (∀ failed, (p.after as).outcome? a ≠ some (i, failed)) →
    (((p.after as).act a).shard i).fails = ((p.after as).shard i).fails
  /-- It is offered with the failure that makes them just enough. -/
  offers : ∀ a i, i ∈ (p.after as).offers a ↔ (p.after as).outcome? a = some (i, true) ∧
    streak (along (outcomes i) p as) + 1 = p.config.maxFails
  /-- Each streak of failures that gets long enough has led to one offer. -/
  once : ∀ i, (along Pool.offers p as).count i =
    longStreaks p.config.maxFails (along (outcomes i) p as)
  /-- What is offered joins the queue if there is room. -/
  queued : ∀ a, (p.after as).checker ≠ .stopped →
    (p.after as).suspects.length < p.config.suspectQueueCapacity →
    (p.after as).signals a = (p.after as).offers a
  /-- A full queue, and one that the health checker has left, stays as it is. -/
  dropped : ∀ a, (p.after as).checker = .stopped ∨
      p.config.suspectQueueCapacity ≤ (p.after as).suspects.length →
    (p.after as).signals a = []
  /-- What is turned away from a full queue is reported, and nothing else is. -/
  reported : ∀ a, ((p.after as).act a).turnedAway = (p.after as).turnedAway ++
    if (p.after as).TurnsAway then
      ((p.after as).offers a).map fun i => ((p.after as).shard i).address
    else []
  /-- The queue holds what has joined it and is yet to be rechecked. -/
  joins : ∀ a, ((p.after as).act a).checker ≠ .stopped →
    (p.after as).rechecks a ++ ((p.after as).act a).suspects =
      (p.after as).suspects ++ (p.after as).signals a
  /-- A failure does the same and answers the same whatever the queue holds. -/
  aside : ∀ a i q, (p.after as).outcome? a = some (i, true) → (p.after as).Echoes q →
    ((p.after as).act a).Echoes (q.act a) ∧ q.answer? a = (p.after as).answer? a

/-- Whatever happens to a pool, in whatever order, a shard is suspect when as many failures as the
threshold asks for were the last that was heard of it. It is offered to the suspect queue once for
each such streak, when the streak gets that long. -/
theorem suspects_signalled {config : Config} {addresses : List String} {now : Duration}
    (hcreate : create config addresses now = .ok p) (as : List Action) : p.Signals as := by
  have hwf := WellFormed.of_create hcreate
  obtain ⟨hconfig, -, hp⟩ := eq_of_create hcreate
  have hfresh (i : Nat) : (p.shard i).fails = 0 := by
    subst hp
    simp only [shard, note, List.getD_eq_getElem?_getD, List.getElem?_map]
    cases addresses[i]? <;> rfl
  have hpos : 0 < p.config.maxFails := by
    subst hp
    exact hconfig.maxFails
  clear hp
  have hfixed := (abides_after p as).config
  have hfails := fails_after hwf hfresh as
  have hinforms := informs_act (hwf.after as)
  constructor
  · exact hfails
  · intro i
    rw [Shard.isSuspect, decide_eq_true_eq, hfails]
  · intro a i huntold
    rw [(hinforms a).fails]
    unfold tallied
    split
    · rename_i j failed ho
      refine if_neg fun hji => huntold failed ?_
      rw [ho, hji]
    · rfl
  · intro a i
    rw [mem_offers_iff, hfails, hfixed]
  · exact count_offers_after hwf hfresh hpos as
  · intro a hrunning hroom
    rw [(hinforms a).signals, if_pos ⟨hrunning, hfixed ▸ hroom⟩]
  · intro a hout
    rw [(hinforms a).signals, if_neg]
    rintro ⟨hrunning, hroom⟩
    rw [hfixed] at hroom
    exact hout.elim hrunning (Nat.not_le_of_lt hroom)
  · exact fun a => (hinforms a).turnedAway
  · exact fun a => rechecks_append_suspects (p.after as) a
  · exact fun a i q hfailure hechoes => hechoes.act hfailure

/-- Both shards fail twice in a row. The queue has room for the first of them only. -/
theorem suspects_signalled_two :
    ∃ p as, create { maxFails := 2, suspectQueueCapacity := 1 } ["a:1", "b:1"] .zero = .ok p ∧
      along Pool.offers p as = [0, 1] ∧ (p.after as).suspects = [0] ∧
      (p.after as).turnedAway = ["b:1"] ∧ p.Signals as := by
  have hcreate : create { maxFails := 2, suspectQueueCapacity := 1 } ["a:1", "b:1"] .zero =
    .ok _ := rfl
  let as : List Action := [.start .get, .resume 0 (.error .poolExhausted),
    .resume 0 (.error .poolExhausted), .resume 0 (.error .poolExhausted),
    .resume 0 (.error .poolExhausted)]
  exact ⟨_, as, hcreate, by decide, by decide, by decide, suspects_signalled hcreate as⟩

end Run

end Pool

end QuorumPool
