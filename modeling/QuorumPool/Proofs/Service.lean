import Mathlib.Logic.Function.Basic
import QuorumPool.Proofs.Slots

namespace QuorumPool

/-- Whether a shard in service has something for a get: an idle connection, or room for a dial. -/
def Shard.Serves (s : Shard) (config : Config) : Prop :=
  s.idle ≠ [] ∨ s.hasRoom config.maxActive = true

namespace Pool

/-- Two pools that differ in counters, in the rotation and in what they have written down. -/
structure Twin (p q : Pool) : Prop where
  config : q.config = p.config
  length : q.shards.length = p.shards.length
  shard : ∀ i, ∃ fails tally, q.shard i = { p.shard i with fails, tally }
  conns : q.conns = p.conns
  closed : q.closed = p.closed
  tasks : q.tasks = p.tasks
  nextTask : q.nextTask = p.nextTask
  now : q.now = p.now

variable {p q r : Pool} {i j : Nat}

namespace Twin

theorem refl : p.Twin p := ⟨rfl, rfl, fun _ => ⟨_, _, rfl⟩, rfl, rfl, rfl, rfl, rfl⟩

theorem trans (hpq : p.Twin q) (hqr : q.Twin r) : p.Twin r where
  config := hqr.config.trans hpq.config
  length := hqr.length.trans hpq.length
  shard i := by
    obtain ⟨fails, tally, hq⟩ := hpq.shard i
    obtain ⟨fails', tally', hr⟩ := hqr.shard i
    exact ⟨fails', tally', by rw [hr, hq]⟩
  conns := hqr.conns.trans hpq.conns
  closed := hqr.closed.trans hpq.closed
  tasks := hqr.tasks.trans hpq.tasks
  nextTask := hqr.nextTask.trans hpq.nextTask
  now := hqr.now.trans hpq.now

theorem note (e : Event) : p.Twin (p.note e) :=
  ⟨rfl, rfl, fun _ => ⟨_, _, rfl⟩, rfl, rfl, rfl, rfl, rfl⟩

theorem rotate : p.Twin p.rotate := ⟨rfl, rfl, fun _ => ⟨_, _, rfl⟩, rfl, rfl, rfl, rfl, rfl⟩

theorem modifyShard {f : Shard → Shard} (hf : ∀ s, ∃ fails tally, f s = { s with fails, tally }) :
    p.Twin (p.modifyShard i f) := by
  refine ⟨rfl, length_shards_modifyShard, fun j => ?_, rfl, rfl, rfl, rfl, rfl⟩
  by_cases hi : i < p.shards.length
  · rw [shard_modifyShard hi]
    split
    · exact hf _
    · exact ⟨_, _, rfl⟩
  · rw [modifyShard_of_length_le (Nat.le_of_not_lt hi)]
    exact ⟨_, _, rfl⟩

theorem count {t : Tally → Tally} : p.Twin (p.count i t) := modifyShard fun _ => ⟨_, _, rfl⟩

theorem visited (htwin : p.Twin q) (start attempt : Nat) :
    q.visited start attempt = p.visited start attempt := by
  rw [Pool.visited, htwin.length, Pool.visited]

theorem serves (htwin : p.Twin q) {config : Config} :
    (q.shard i).Serves config ↔ (p.shard i).Serves config := by
  obtain ⟨fails, tally, hq⟩ := htwin.shard i
  rw [hq]
  rfl

end Twin

/-- A shard in service that has nothing for a get refuses it. -/
theorem borrow_of_not_serves (hopen : (p.shard i).closed = false)
    (hserves : ¬(p.shard i).Serves p.config) :
    p.borrow i = (p.count i Tally.countGet, .done (.error .poolExhausted)) := by
  obtain ⟨fails, tally, hcount⟩ := (Twin.count (p := p) (i := i) (t := Tally.countGet)).shard i
  simp only [Shard.Serves, not_or, ne_eq, Decidable.not_not, Bool.not_eq_true] at hserves
  have hroom : ({ p.shard i with fails, tally } : Shard).hasRoom p.config.maxActive = false :=
    hserves.2
  simp only [borrow, hopen, serve, hcount, hserves.1, Bool.false_eq_true, if_false]
  change (if ({ p.shard i with fails, tally } : Shard).hasRoom p.config.maxActive then _ else _) = _
  rw [hroom]
  rfl

/-- A get whose visits come to a shard that has something for it borrows there, or at one before. -/
theorem exists_visit_eq {start : Nat}
    (hservice : ∀ i < p.shards.length, (p.shard i).available = true ∧ (p.shard i).closed = false)
    (hpos : 0 < p.shards.length) {attempt left d : Nat} (hd : d < left)
    (hserves : (p.shard (p.visited start (attempt + d))).Serves p.config) :
    ∃ q a, p.Twin q ∧ (p.shard (p.visited start a)).Serves p.config ∧
      ∀ r s, q.borrow (p.visited start a) = (r, .waits s) →
        p.visit start attempt left = (r, .waits ⟨start, a, s⟩) := by
  induction left generalizing p attempt d with
  | zero => omega
  | succ left ih =>
    have hi : p.visited start attempt < p.shards.length := Nat.mod_lt _ hpos
    obtain ⟨havailable, hopen⟩ := hservice _ hi
    by_cases hnow : (p.shard (p.visited start attempt)).Serves p.config
    · refine ⟨p, attempt, .refl, hnow, fun r s hborrow => ?_⟩
      simp only [visit, havailable, if_true, hborrow]
    -- The shard of this attempt has nothing, so the one that has comes up in a later attempt.
    · have hd' : d ≠ 0 := by
        rintro rfl
        exact hnow hserves
      obtain ⟨d, rfl⟩ := Nat.exists_eq_succ_of_ne_zero hd'
      let q := (p.count (p.visited start attempt) Tally.countGet).passOver
        (p.visited start attempt) attempt .poolExhausted
      have htwin : p.Twin q := Twin.count.trans (Twin.rotate.trans (.note _))
      have hvisit : p.visit start attempt (left + 1) = q.visit start (attempt + 1) left := by
        simp only [visit, havailable, if_true, borrow_of_not_serves hopen hnow]
        rfl
      have hstill : ∀ i < q.shards.length,
          (q.shard i).available = true ∧ (q.shard i).closed = false := by
        intro i hi
        obtain ⟨fails, tally, hq⟩ := htwin.shard i
        rw [hq]
        exact hservice i (htwin.length ▸ hi)
      have hlater : (q.shard (q.visited start (attempt + 1 + d))).Serves q.config := by
        rw [htwin.visited, htwin.config, htwin.serves,
          show attempt + 1 + d = attempt + (d + 1) by omega]
        exact hserves
      obtain ⟨r, a, hr, hserve, hborrow⟩ :=
        ih hstill (htwin.length ▸ hpos) (by omega) hlater
      rw [htwin.visited, htwin.config, htwin.serves] at hserve
      rw [htwin.visited] at hborrow
      exact ⟨r, a, htwin.trans hr, hserve, fun r s hrs => hvisit.trans (hborrow r s hrs)⟩

theorem exists_add_mod_eq (start : Nat) {n : Nat} (hi : i < n) : ∃ d < n, (start + d) % n = i := by
  have hmod : start % n < n := Nat.mod_lt _ (by omega)
  have hstart : ∀ d, (start + d) % n = (start % n + d) % n := by simp
  by_cases hle : start % n ≤ i
  · refine ⟨i - start % n, by omega, ?_⟩
    rw [hstart, Nat.add_sub_cancel' hle, Nat.mod_eq_of_lt hi]
  · refine ⟨i + n - start % n, by omega, ?_⟩
    rw [hstart, show start % n + (i + n - start % n) = i + n by omega, Nat.add_mod_right,
      Nat.mod_eq_of_lt hi]

/-- A dial starts where no connection is idle and the limit leaves room. -/
theorem borrow_of_hasRoom (hopen : (p.shard i).closed = false) (hidle : (p.shard i).idle = [])
    (hroom : (p.shard i).hasRoom p.config.maxActive = true) :
    p.borrow i = (((p.count i Tally.countGet).modifyShard i Shard.occupySlot).count i
      Tally.countDial, .waits .dialing) := by
  obtain ⟨fails, tally, hcount⟩ := (Twin.count (p := p) (i := i) (t := Tally.countGet)).shard i
  have hroom' : ({ p.shard i with fails, tally } : Shard).hasRoom p.config.maxActive = true := hroom
  simp only [borrow, hopen, serve, hcount, hidle, Bool.false_eq_true, if_false]
  exact if_pos hroom'

/-- A fresh idle connection is taken to be validated. -/
theorem borrow_of_testOnBorrow {c : ConnId} {rest : List ConnId}
    (hopen : (p.shard i).closed = false)
    (hidle : (p.shard i).idle = c :: rest) (hfresh : p.isStale c = false)
    (htest : p.config.testOnBorrow = true) :
    p.borrow i = ((p.count i Tally.countGet).dropIdle i, .waits (.validating c)) := by
  obtain ⟨fails, tally, hcount⟩ := (Twin.count (p := p) (i := i) (t := Tally.countGet)).shard i
  have hfresh' : ((p.count i Tally.countGet).dropIdle i).isStale c = false := hfresh
  have htest' : ((p.count i Tally.countGet).dropIdle i).config.testOnBorrow = true := htest
  simp only [borrow, hopen, serve, hcount, hidle, hfresh', htest', Bool.false_eq_true, if_false,
    if_true]

/-- A pool of `n` shards, all in service, with what they hold and the tasks in flight. -/
structure Stands (p : Pool) (config : Config) (n : Nat) (idle : Nat → List ConnId)
    (active : Nat → Nat) (tasks : List (TaskId × Task)) : Prop where
  config : p.config = config
  length : p.shards.length = n
  opened : p.closed = false
  service : ∀ i < n, (p.shard i).available = true ∧ (p.shard i).closed = false
  holds : ∀ i < n, (p.shard i).idle = idle i ∧ (p.shard i).active = active i
  tasks : p.tasks = tasks

variable {config : Config} {n : Nat} {idle : Nat → List ConnId} {active : Nat → Nat}
  {tasks : List (TaskId × Task)}

theorem Twin.stands (htwin : p.Twin q) (hp : p.Stands config n idle active tasks) :
    q.Stands config n idle active tasks := by
  refine ⟨htwin.config.trans hp.config, htwin.length.trans hp.length, htwin.closed.trans hp.opened,
    fun i hi => ?_, fun i hi => ?_, htwin.tasks.trans hp.tasks⟩
  · obtain ⟨fails, tally, hq⟩ := htwin.shard i
    rw [hq]
    exact hp.service i hi
  · obtain ⟨fails, tally, hq⟩ := htwin.shard i
    rw [hq]
    exact hp.holds i hi

namespace Stands

theorem congr {idle' : Nat → List ConnId} {active' : Nat → Nat}
    (hp : p.Stands config n idle active tasks)
    (hidle : ∀ i < n, idle i = idle' i) (hactive : ∀ i < n, active i = active' i) :
    p.Stands config n idle' active' tasks := by
  refine ⟨hp.config, hp.length, hp.opened, hp.service, fun i hi => ?_, hp.tasks⟩
  rw [← hidle i hi, ← hactive i hi]
  exact hp.holds i hi

theorem modifyShard (hp : p.Stands config n idle active tasks) (hi : i < n) {f : Shard → Shard}
    (hf : ∀ s, (f s).available = s.available ∧ (f s).closed = s.closed) :
    (p.modifyShard i f).Stands config n (Function.update idle i (f (p.shard i)).idle)
      (Function.update active i (f (p.shard i)).active) tasks := by
  have hlt : i < p.shards.length := by rwa [hp.length]
  refine ⟨hp.config, length_shards_modifyShard.trans hp.length, hp.opened, fun j hj => ?_,
    fun j hj => ?_, hp.tasks⟩
  · rw [shard_modifyShard hlt]
    split
    · rw [(hf _).1, (hf _).2]
      exact hp.service j hj
    · exact hp.service j hj
  · rw [shard_modifyShard hlt]
    by_cases hij : i = j
    · subst hij
      simp
    · rw [if_neg hij, Function.update_of_ne (Ne.symm hij), Function.update_of_ne (Ne.symm hij)]
      exact hp.holds j hj

theorem hasRoom_iff (hp : p.Stands config n idle active tasks) (hm : 0 < config.maxActive)
    (hi : i < n) : (p.shard i).hasRoom config.maxActive = true ↔ active i < config.maxActive := by
  rw [← (hp.holds i hi).2]
  simp only [Shard.hasRoom, Bool.or_eq_true, beq_iff_eq, decide_eq_true_eq]
  omega

theorem serves_iff (hp : p.Stands config n idle active tasks) (hm : 0 < config.maxActive)
    (hi : i < n) : (p.shard i).Serves config ↔ idle i ≠ [] ∨ active i < config.maxActive := by
  rw [Shard.Serves, hp.hasRoom_iff hm hi, (hp.holds i hi).1]

/-- A new task, whose call is written down, is behind those in flight. -/
theorem enter (hp : p.Stands config n idle active tasks) (t : Task) :
    (({ p with tasks := p.tasks ++ [(p.nextTask, t)], nextTask := p.nextTask + 1 } : Pool).askFor
      t).Stands config n idle active (tasks ++ [(p.nextTask, t)]) := by
  obtain ⟨journal, hask⟩ := exists_askFor_eq
    ({ p with tasks := p.tasks ++ [(p.nextTask, t)], nextTask := p.nextTask + 1 } : Pool) t
  rw [hask]
  exact ⟨hp.config, hp.length, hp.opened, hp.service, hp.holds, by rw [← hp.tasks]⟩

/-- A get that dials takes a slot of the shard. -/
theorem dial {i : Nat} (hp : p.Stands config n idle active tasks) (hi : i < n) :
    (((p.count i Tally.countGet).modifyShard i Shard.occupySlot).count i Tally.countDial).Stands
      config n idle (Function.update active i (active i + 1)) tasks := by
  have hcount := (Twin.count (i := i) (t := Tally.countGet)).stands hp
  have hslot := hcount.modifyShard hi (f := Shard.occupySlot) fun _ => ⟨rfl, rfl⟩
  have hholds := hcount.holds i hi
  rw [Shard.occupySlot, hholds.1, hholds.2, Function.update_eq_self] at hslot
  exact (Twin.count (i := i) (t := Tally.countDial)).stands hslot

/-- A get that takes an idle connection leaves the rest of the queue. -/
theorem pop {i : Nat} {c : ConnId} {rest : List ConnId}
    (hp : p.Stands config n idle active tasks) (hi : i < n) (hidle : idle i = c :: rest) :
    ((p.count i Tally.countGet).dropIdle i).Stands config n (Function.update idle i rest) active
      tasks := by
  have hcount := (Twin.count (i := i) (t := Tally.countGet)).stands hp
  have hdrop := hcount.modifyShard hi (f := fun s => { s with idle := s.idle.tail })
    fun _ => ⟨rfl, rfl⟩
  have hholds := hcount.holds i hi
  simp only [hholds.1, hholds.2, hidle, List.tail_cons, Function.update_eq_self] at hdrop
  exact hdrop

/-- A get borrows at some shard that has something for it, if there is one. -/
theorem exists_start_eq (hp : p.Stands config n idle active tasks)
    (hserves : ∃ i < n, (p.shard i).Serves config) :
    ∃ q a, p.Twin q ∧ p.visited p.rotation a < n ∧
      (p.shard (p.visited p.rotation a)).Serves config ∧
      ∀ r s, q.borrow (p.visited p.rotation a) = (r, .waits s) →
        (p.start .get).1 = ({ r with
          tasks := r.tasks ++ [(r.nextTask, .get ⟨p.rotation, a, s⟩)],
          nextTask := r.nextTask + 1 } : Pool).askFor (.get ⟨p.rotation, a, s⟩) := by
  obtain ⟨i, hi, hserves⟩ := hserves
  have hpos : 0 < p.shards.length := by rw [hp.length]; omega
  obtain ⟨d, hd, hvisit⟩ := exists_add_mod_eq p.rotation hi
  have hleft : d < p.maxRetry := by
    rw [maxRetry, hp.length, Config.retryBudget]
    omega
  have hthere : (p.rotate.shard (p.rotate.visited p.rotation (0 + d))).Serves p.rotate.config := by
    rw [Twin.rotate.visited, Twin.rotate.serves, Nat.zero_add, visited, hp.length, hvisit]
    exact hp.config.symm ▸ hserves
  obtain ⟨q, a, htwin, hserves, hborrow⟩ := exists_visit_eq (p := p.rotate)
    (fun i hi => hp.service i (hp.length ▸ hi)) hpos hleft hthere
  rw [Twin.rotate.visited, Twin.rotate.serves] at hserves
  refine ⟨q, a, Twin.rotate.trans htwin, hp.length ▸ Nat.mod_lt _ hpos, ?_, fun r s hrs => ?_⟩
  · exact hp.config ▸ hserves
  · have hget : p.get = (r, .waits ⟨p.rotation, a, s⟩) := by
      rw [get, hp.opened]
      exact hborrow r s hrs
    simp only [start, begin, hget, Prod.map, Progress.map, id]

/-- A get on shards without idle connections dials at one that has room. -/
theorem exists_start_dial (hp : p.Stands config n (fun _ => []) active tasks)
    (hm : 0 < config.maxActive) (hroom : ∃ i < n, active i < config.maxActive) :
    ∃ a, p.visited p.rotation a < n ∧ active (p.visited p.rotation a) < config.maxActive ∧
      (p.start .get).1.Stands config n (fun _ => [])
        (Function.update active (p.visited p.rotation a) (active (p.visited p.rotation a) + 1))
        (tasks ++ [(p.nextTask, .get ⟨p.rotation, a, .dialing⟩)]) := by
  obtain ⟨j, hj, hroom⟩ := hroom
  obtain ⟨q, a, htwin, hi, hserves, hborrow⟩ :=
    hp.exists_start_eq ⟨j, hj, (hp.serves_iff hm hj).mpr (.inr hroom)⟩
  refine ⟨a, hi, ?_⟩
  revert hi hserves hborrow
  generalize p.visited p.rotation a = i
  intro hi hserves hborrow
  have hlt : active i < config.maxActive := by simpa using (hp.serves_iff hm hi).mp hserves
  have hq := htwin.stands hp
  have hdial := hborrow _ _ (borrow_of_hasRoom (hq.service i hi).2 (hq.holds i hi).1
    (hq.config.symm ▸ (hq.hasRoom_iff hm hi).mpr hlt))
  have hnext : p.nextTask = q.nextTask := htwin.nextTask.symm
  refine ⟨hlt, ?_⟩
  rw [hdial, hnext]
  exact (hq.dial hi).enter _

/-- A get that can only be served by one shard's idle connection validates it. -/
theorem exists_start_validating {i : Nat} {c : ConnId} {rest : List ConnId}
    (hp : p.Stands config n idle active tasks) (hm : 0 < config.maxActive) (hi : i < n)
    (hidle : idle i = c :: rest)
    (hfull : ∀ j < n, j ≠ i → idle j = [] ∧ config.maxActive ≤ active j)
    (hfresh : p.isStale c = false) (htest : config.testOnBorrow = true) :
    ∃ a, p.visited p.rotation a = i ∧
      (p.start .get).1.Stands config n (Function.update idle i rest) active
        (tasks ++ [(p.nextTask, .get ⟨p.rotation, a, .validating c⟩)]) := by
  have hserves : (p.shard i).Serves config := (hp.serves_iff hm hi).mpr (.inl (by simp [hidle]))
  obtain ⟨q, a, htwin, hvisited, hserves, hborrow⟩ := hp.exists_start_eq ⟨i, hi, hserves⟩
  have hthere : p.visited p.rotation a = i := by
    by_contra hne
    have hnone := hfull _ hvisited hne
    have hsome := (hp.serves_iff hm hvisited).mp hserves
    simp only [hnone.1, ne_eq, not_true_eq_false, false_or] at hsome
    omega
  refine ⟨a, hthere, ?_⟩
  rw [hthere] at hborrow
  have hq := htwin.stands hp
  have hfreshq : q.isStale c = false := by
    rw [isStale, htwin.config, htwin.conns, htwin.now]
    exact hfresh
  have hvalidate := hborrow _ _ (borrow_of_testOnBorrow (hq.service i hi).2
    ((hq.holds i hi).1.trans hidle) hfreshq (hq.config.symm ▸ htest))
  have hnext : p.nextTask = q.nextTask := htwin.nextTask.symm
  rw [hvalidate, hnext]
  exact (hq.pop hi hidle).enter _

end Stands

/-- A return leaves the rotation alone. -/
theorem rotation_put (p : Pool) (c : ConnId) (broken : Bool) :
    (p.put c broken).1.rotation = p.rotation := by
  have hreclaim (i : Nat) : (p.reclaim i c broken).rotation = p.rotation :=
    rotation_recordOutcome _ i broken
  unfold put
  dsimp only
  split
  · split
    · exact hreclaim _
    split <;> exact hreclaim _
  · rfl

/-- A task that goes on to its result leaves the others in flight. -/
theorem resume_of_advance (pre post : List (TaskId × Task)) (hwf : p.WellFormed) {id : TaskId}
    {t : Task} {reply : Reply} {a : Answer} (htasks : p.tasks = pre ++ (id, t) :: post)
    (hadvance : p.advance t reply = (q, .done a)) (hq : q.tasks = p.tasks) :
    (p.resume id reply).1 = { q with tasks := pre ++ post } := by
  simp only [resume, hwf.task?_eq htasks, hadvance]
  rw [hq, htasks, filter_tasks (hwf.ne_of_tasks_eq htasks)]

/-- A task that goes on to wait again stands where it stood among those in flight. -/
theorem exists_resume_waits (pre post : List (TaskId × Task)) (hwf : p.WellFormed) {id : TaskId}
    {t t' : Task} {reply : Reply} (htasks : p.tasks = pre ++ (id, t) :: post)
    (hadvance : p.advance t reply = (q, .waits t')) (hq : q.tasks = p.tasks) :
    ∃ journal, (p.resume id reply).1 = { q with tasks := pre ++ (id, t') :: post, journal } := by
  simp only [resume, hwf.task?_eq htasks, hadvance]
  rw [hq, htasks, map_tasks (hwf.ne_of_tasks_eq htasks)]
  exact exists_askFor_eq _ t'

/-- A get in flight may go on at any time: it waits for the factory. -/
theorem admits_resume_get (pre post : List (TaskId × Task)) (hwf : p.WellFormed) {id : TaskId}
    {g : Getting} (htasks : p.tasks = pre ++ (id, .get g) :: post) (reply : Reply) :
    p.Admits (.resume id reply) := by
  obtain ⟨start, attempt, borrowing⟩ := g
  left
  rw [Pool.call?, hwf.task?_eq htasks]
  cases borrowing <;> rfl

namespace Stands

/-- A dial that succeeds lends under the slot taken for it. -/
theorem resume_dialing (pre post : List (TaskId × Task)) (hwf : p.WellFormed) {id : TaskId}
    {start attempt : Nat}
    (hp : p.Stands config n idle active (pre ++ (id, .get ⟨start, attempt, .dialing⟩) :: post)) :
    (p.resume id (.ok ())).1.Stands config n idle active (pre ++ post) := by
  have hadopt : p.Twin { p.adopt (p.visited start attempt) with conns := p.conns } :=
    Twin.trans (q := p.recordOutcome (p.visited start attempt) false)
      (Twin.modifyShard fun _ => ⟨_, _, rfl⟩)
      ⟨rfl, rfl, fun _ => ⟨_, _, rfl⟩, rfl, rfl, rfl, rfl, rfl⟩
  have hq := hadopt.stands hp
  rw [resume_of_advance pre post (q := p.adopt (p.visited start attempt))
    (a := .lent p.conns.length) hwf hp.tasks rfl rfl]
  exact ⟨hq.config, hq.length, hq.opened, hq.service, hq.holds, rfl⟩

/-- A validated connection is lent, whatever the limit. -/
theorem resume_validating (pre post : List (TaskId × Task)) (hwf : p.WellFormed) {id : TaskId}
    {start attempt : Nat} {c : ConnId}
    (hi : p.visited start attempt < n)
    (hp : p.Stands config n idle active
      (pre ++ (id, .get ⟨start, attempt, .validating c⟩) :: post)) :
    (p.resume id (.ok ())).1.Stands config n idle
      (Function.update active (p.visited start attempt) (active (p.visited start attempt) + 1))
      (pre ++ post) := by
  rw [resume_of_advance pre post (q := p.lend (p.visited start attempt) c) (a := .lent c) hwf
    hp.tasks rfl rfl]
  have hconn :
      (p.modifyConn c fun conn => { conn with borrowed := true }).Stands config n idle active
        (pre ++ (id, .get ⟨start, attempt, .validating c⟩) :: post) :=
    ⟨hp.config, hp.length, hp.opened, hp.service, hp.holds, hp.tasks⟩
  have hslot := hconn.modifyShard hi (f := Shard.occupySlot) fun _ => ⟨rfl, rfl⟩
  have hholds := hconn.holds _ hi
  rw [Shard.occupySlot, hholds.1, hholds.2, Function.update_eq_self] at hslot
  exact ⟨hslot.config, hslot.length, hslot.opened, hslot.service, hslot.holds, rfl⟩

/-- A sound connection that comes back to a shard in service waits there for the next get. -/
theorem start_put {c : ConnId} {conn : Conn} (hp : p.Stands config n (fun _ => []) active tasks)
    (hconn : p.conns[c]? = some conn) (hborrowed : conn.borrowed = true) (hi : conn.shard < n)
    (hmax : 0 < config.maxIdle) :
    (p.start (.put c false)).1.Stands config n (Function.update (fun _ => []) conn.shard [c])
        (Function.update active conn.shard (active conn.shard - 1)) tasks ∧
      (p.start (.put c false)).1.isStale c = false := by
  obtain ⟨i, borrowed, lastUsed⟩ := conn
  dsimp only at hborrowed hi
  subst hborrowed
  let q := p.modifyConn c fun conn => { conn with borrowed := false, lastUsed := p.now }
  have hback : q.Stands config n (fun _ => []) active tasks :=
    ⟨hp.config, hp.length, hp.opened, hp.service, hp.holds, hp.tasks⟩
  have hrecord : q.Twin (q.recordOutcome i false) := Twin.modifyShard fun _ => ⟨_, _, rfl⟩
  have hcount := (hrecord.trans (Twin.count (i := i) (t := (·.countPut false)))).stands hback
  have hreclaim : (p.reclaim i c false).Stands config n _ _ tasks :=
    hcount.modifyShard hi (f := Shard.releaseSlot) fun _ => ⟨rfl, rfl⟩
  have hholds := hcount.holds i hi
  rw [Shard.releaseSlot, hholds.1, hholds.2, Function.update_eq_self_iff.mpr rfl] at hreclaim
  have haccepts : ((p.reclaim i c false).shard i).acceptsIdle = true := by
    rw [Shard.acceptsIdle, (hreclaim.service i hi).1, (hreclaim.service i hi).2]
    rfl
  have hidle : ((p.reclaim i c false).shard i).idle = [] := (hreclaim.holds i hi).1
  have hroom :
      ((p.reclaim i c false).shard i).idle.length < (p.reclaim i c false).config.maxIdle := by
    rw [hidle, hreclaim.config]
    exact hmax
  have hstart : (p.start (.put c false)).1 =
      (p.reclaim i c false).modifyShard i fun s => { s with idle := s.idle ++ [c] } := by
    simp only [start, begin, put, hconn, haccepts, hroom, Bool.not_true, Bool.or_self,
      Bool.false_eq_true, if_false, if_true, Prod.map, Progress.map, id]
  have hqueue := hreclaim.modifyShard hi (f := fun s => { s with idle := s.idle ++ [c] })
    fun _ => ⟨rfl, rfl⟩
  rw [hstart]
  constructor
  · simpa only [hidle, (hreclaim.holds i hi).2, Function.update_eq_self, List.nil_append]
      using hqueue
  · have hnow : (p.reclaim i c false).conns[c]? = some ⟨i, false, p.now⟩ := by
      change q.conns[c]? = _
      rw [getElem?_modifyConn, hconn]
      simp
    have hstale : (p.reclaim i c false).isStale c = false := by
      unfold isStale
      rw [hnow]
      split
      · rename_i timeout conn _ hsome
        obtain rfl := Option.some.inj hsome
        apply decide_eq_false
        rw [Duration.lt_iff, Duration.nanos_sub]
        change ¬timeout.nanos < p.now.nanos - p.now.nanos
        omega
      · rfl
    exact hstale

end Stands

theorem stands_of_create {addresses : List String} {now : Duration}
    (hcreate : create config addresses now = .ok p) :
    p.Stands config addresses.length (fun _ => []) (fun _ => 0) [] := by
  obtain ⟨_, _, rfl⟩ := eq_of_create hcreate
  have hshard : ∀ i < addresses.length, ∃ address,
      ((addresses.map fun a => { address := a }).getD i default : Shard) = { address } := by
    intro i hi
    exact ⟨addresses[i], by simp [List.getD_eq_getElem?_getD, hi]⟩
  refine ⟨rfl, by simp [note], rfl, fun i hi => ?_, fun i hi => ?_, rfl⟩ <;>
    obtain ⟨address, haddress⟩ := hshard i hi
  · rw [shard, note, haddress]
    exact ⟨rfl, rfl⟩
  · rw [shard, note, haddress]
    exact ⟨rfl, rfl⟩

end Pool

end QuorumPool
