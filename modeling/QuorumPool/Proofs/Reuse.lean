import QuorumPool.Proofs.Borrowing
import QuorumPool.Proofs.Demotions

namespace QuorumPool.Pool

variable {p q : Pool} {config : Config} {n k : Nat}

/-- A get makes its first visit at the shard that the rotation has come to. -/
theorem get_of_waits {i : Nat} {s : Borrowing} (hopen : p.closed = false) (hretry : 0 < p.maxRetry)
    (hi : p.visited p.rotation 0 = i) (havailable : (p.shard i).available = true)
    (hborrow : p.rotate.borrow i = (q, .waits s)) : p.get = (q, .waits ⟨p.rotation, 0, s⟩) := by
  obtain ⟨left, hleft⟩ := Nat.exists_eq_succ_of_ne_zero (Nat.ne_of_gt hretry)
  have hvisited : p.rotate.visited p.rotation 0 = i := hi
  have hthere : (p.rotate.shard i).available = true := havailable
  simp only [get, hopen, Bool.false_eq_true, if_false, hleft, visit, hvisited, hthere, if_true,
    hborrow]

private theorem get_of_lends {i : Nat} {c : ConnId} (hopen : p.closed = false)
    (hretry : 0 < p.maxRetry)
    (hi : p.visited p.rotation 0 = i) (havailable : (p.shard i).available = true)
    (hborrow : p.rotate.borrow i = (q, .done (.ok c))) : p.get = (q, .done (.ok c)) := by
  obtain ⟨left, hleft⟩ := Nat.exists_eq_succ_of_ne_zero (Nat.ne_of_gt hretry)
  have hvisited : p.rotate.visited p.rotation 0 = i := hi
  have hthere : (p.rotate.shard i).available = true := havailable
  simp only [get, hopen, Bool.false_eq_true, if_false, hleft, visit, hvisited, hthere, if_true,
    hborrow]

/-- A get that comes to wait is a task from then on. -/
theorem start_of_get {g : Getting} (hget : p.get = (q, .waits g)) :
    p.start .get = (({ q with
      tasks := q.tasks ++ [(q.nextTask, .get g)],
      nextTask := q.nextTask + 1 } : Pool).askFor (.get g), .waits q.nextTask) := by
  simp only [start, begin, hget, Prod.map, Progress.map]
  rfl

theorem Stands.start_get {idle : Nat → List ConnId} {active : Nat → Nat}
    {tasks : List (TaskId × Task)} {g : Getting} (hget : p.get = (q, .waits g))
    (hq : q.Stands config n idle active tasks) :
    (p.start .get).1.Stands config n idle active (tasks ++ [(q.nextTask, .get g)]) := by
  rw [start_of_get hget]
  exact hq.enter (.get g)

/-- A fresh idle connection is lent at once where none is validated. -/
theorem borrow_of_fresh {i : Nat} {c : ConnId} {rest : List ConnId}
    (hopen : (p.shard i).closed = false) (hidle : (p.shard i).idle = c :: rest)
    (hfresh : p.isStale c = false) (htest : p.config.testOnBorrow = false) :
    p.borrow i = (((p.count i Tally.countGet).dropIdle i).lend i c, .done (.ok c)) := by
  obtain ⟨fails, tally, hcount⟩ := (Twin.count (p := p) (i := i) (t := Tally.countGet)).shard i
  have hfresh' : ((p.count i Tally.countGet).dropIdle i).isStale c = false := hfresh
  have htest' : ((p.count i Tally.countGet).dropIdle i).config.testOnBorrow = false := htest
  simp only [borrow, hopen, serve, hcount, hidle, hfresh', htest', Bool.false_eq_true, if_false]

private theorem rotation_askFor (t : Task) : (p.askFor t).rotation = p.rotation := by
  obtain ⟨journal, hask⟩ := exists_askFor_eq p t
  rw [hask]

theorem rotation_start_put (c : ConnId) (broken : Bool) :
    (p.start (.put c broken)).1.rotation = p.rotation := by
  obtain ⟨tasks, nextTask, journal, hstart⟩ := exists_start_eq p (.put c broken)
  rw [hstart]
  exact rotation_put p c broken

/-- A get that comes first to a shard with nothing idle and room for a dial is lent what it dials
there. -/
theorem Stands.exists_run_dial {active : Nat → Nat} {tasks : List (TaskId × Task)}
    (hp : p.Stands config n (fun _ => []) active tasks) (hwf : p.WellFormed) (hk : k < n)
    (hvisited : p.visited p.rotation 0 = k)
    (hroom : (p.shard k).hasRoom p.config.maxActive = true) :
    ∃ as t, p.Runs as ∧ (∀ a ∈ as, a.isPut = false) ∧
      (p.after as).Stands config n (fun _ => []) (Function.update active k (active k + 1)) tasks ∧
      (p.after as).rotation = p.rotation + 1 ∧ (p.after as).conns = p.conns ++ [⟨k, true, t⟩] := by
  have hretry : 0 < p.maxRetry := by
    rw [maxRetry, hp.length, Config.retryBudget]
    omega
  have hborrow := borrow_of_hasRoom (p := p.rotate) (hp.service k hk).2 (hp.holds k hk).1 hroom
  have hget := get_of_waits hp.opened hretry hvisited (hp.service k hk).1 hborrow
  have hwait := ((Twin.rotate.stands hp).dial hk).start_get hget
  have hwf' : (p.start .get).1.WellFormed := hwf.act (.start .get)
  have hthere : (p.start .get).1.visited p.rotation 0 = k := by
    rw [visited, hwait.length, ← hp.length]
    exact hvisited
  have hadvance : (p.start .get).1.advance (.get ⟨p.rotation, 0, .dialing⟩) (.ok ()) =
      ((p.start .get).1.adopt k, .done (.lent (p.start .get).1.conns.length)) := by
    rw [← hthere]
    rfl
  let as : List Action := [.start .get, .resume p.nextTask (.ok ())]
  have hafter : p.after as = { (p.start .get).1.adopt k with tasks := tasks ++ [] } :=
    resume_of_advance tasks [] hwf' hwait.tasks hadvance rfl
  have hstart : (p.start .get).1.conns = p.conns ∧ (p.start .get).1.rotation = p.rotation + 1 := by
    rw [start_of_get hget]
    exact ⟨conns_askFor _, rotation_askFor _⟩
  have hback : (p.after as).Stands config n (fun _ => []) _ (tasks ++ []) :=
    Stands.resume_dialing tasks [] hwf' hwait
  rw [List.append_nil] at hback
  refine ⟨as, (p.start .get).1.now,
    ⟨trivial, admits_resume_get tasks [] hwf' hwait.tasks (.ok ()), trivial⟩,
    by simp [as, Action.isPut], hback, ?_, ?_⟩
  · rw [hafter, ← hstart.2]
    rfl
  · rw [hafter, ← hstart.1]
    rfl

/-- As many gets have gone round: the first `k` of `n` shards lend one connection each, and nothing
is idle or under way. -/
structure Laden (p : Pool) (config : Config) (n k : Nat) : Prop where
  stands : p.Stands config n (fun _ => []) (fun j => if j < k then 1 else 0) []
  rotation : p.rotation = k
  conns : p.conns.length = k
  lent : ∀ j < k, ∃ t, p.conns[j]? = some ⟨j, true, t⟩

namespace Laden

/-- A connection that was dialed at the next shard is lent with the others. -/
theorem succ (hp : p.Laden config n k) {t : Duration}
    (hstands : q.Stands config n (fun _ => [])
      (Function.update (fun j => if j < k then 1 else 0) k ((if k < k then 1 else 0) + 1)) [])
    (hrotation : q.rotation = p.rotation + 1) (hconns : q.conns = p.conns ++ [⟨k, true, t⟩]) :
    q.Laden config n (k + 1) := by
  refine ⟨hstands.congr (fun _ _ => rfl) fun j _ => ?_, by rw [hrotation, hp.rotation], ?_,
    fun j hj => ?_⟩
  · by_cases hjk : j = k
    · simp [hjk]
    · rw [Function.update_of_ne hjk]
      congr 1
      exact propext (by omega)
  · rw [hconns, List.length_append, hp.conns, List.length_singleton]
  · rw [hconns]
    by_cases hjk : j < k
    · rw [List.getElem?_append_left (by rwa [hp.conns])]
      exact hp.lent j hjk
    · obtain rfl : j = k := by omega
      exact ⟨t, by simp [← hp.conns]⟩

/-- The next get is lent what it dials. -/
theorem exists_run_succ (hp : p.Laden config n k) (hwf : p.WellFormed) (hk : k < n) :
    ∃ as, p.Runs as ∧ (∀ a ∈ as, a.isPut = false) ∧ (p.after as).Laden config n (k + 1) := by
  have hstands := hp.stands
  have hvisited : p.visited p.rotation 0 = k := by
    rw [visited, hp.rotation, hstands.length, Nat.add_zero, Nat.mod_eq_of_lt hk]
  have hroom : (p.shard k).hasRoom p.config.maxActive = true := by
    simp only [Shard.hasRoom, (hstands.holds k hk).2, Bool.or_eq_true, beq_iff_eq,
      decide_eq_true_eq, Nat.lt_irrefl, if_false]
    omega
  obtain ⟨as, t, hruns, hputs, hdialed, hrotation, hconns⟩ :=
    hstands.exists_run_dial hwf hk hvisited hroom
  exact ⟨as, hruns, hputs, hp.succ hdialed hrotation hconns⟩

theorem exists_run (hp : p.Laden config n 0) (hwf : p.WellFormed) (hk : k ≤ n) :
    ∃ as, p.Runs as ∧ (∀ a ∈ as, a.isPut = false) ∧ (p.after as).Laden config n k := by
  induction k with
  | zero => exact ⟨[], trivial, by simp, hp⟩
  | succ k ih =>
    obtain ⟨as, hruns, hputs, hladen⟩ := ih (by omega)
    obtain ⟨bs, hmore, hputs', hdone⟩ := hladen.exists_run_succ (hwf.after as) hk
    refine ⟨as ++ bs, runs_append.mpr ⟨hruns, hmore⟩, ?_, by rwa [after_append]⟩
    intro a ha
    exact (List.mem_append.mp ha).elim (hputs a) (hputs' a)

/-- When all shards lend, the connection that comes back to the first one is what the next get is
answered. -/
theorem exists_serves (hp : p.Laden config n n) (hwf : p.WellFormed) (hn : 0 < n)
    (hmax : 0 < config.maxIdle) :
    ∃ cs, (p.start (.put 0 false)).1.Runs cs ∧ (∀ a ∈ cs, a.isPut = false) ∧
      (p.start (.put 0 false)).1.Serves .get cs (.lent 0) := by
  obtain ⟨t, hconn⟩ := hp.lent 0 hn
  obtain ⟨hback, hfresh⟩ := hp.stands.start_put hconn rfl hn hmax
  have hrotation := rotation_start_put (p := p) 0 false
  have hwf' : (p.start (.put 0 false)).1.WellFormed := hwf.act (.start (.put 0 false))
  generalize (p.start (.put 0 false)).1 = q at hback hfresh hrotation hwf' ⊢
  have hvisited : q.visited q.rotation 0 = 0 := by
    rw [visited, hrotation, hp.rotation, hback.length, Nat.add_zero, Nat.mod_self]
  have hretry : 0 < q.maxRetry := by
    rw [maxRetry, hback.length, Config.retryBudget]
    omega
  obtain ⟨havailable, hopen⟩ := hback.service 0 hn
  have hidle : (q.shard 0).idle = [0] := (hback.holds 0 hn).1.trans (Function.update_self ..)
  cases htest : config.testOnBorrow with
  | false =>
    have hget := get_of_lends hback.opened hretry hvisited havailable
      (borrow_of_fresh (p := q.rotate) hopen hidle hfresh (hback.config.symm ▸ htest))
    refine ⟨[.start .get], ⟨trivial, trivial⟩, by simp [Action.isPut], .inl ⟨rfl, ?_⟩⟩
    rw [answer?_start_eq_some_iff]
    simp only [begin, hget, Prod.map]
    rfl
  | true =>
    have hget := get_of_waits hback.opened hretry hvisited havailable
      (borrow_of_testOnBorrow (p := q.rotate) hopen hidle hfresh (hback.config.symm ▸ htest))
    have hwait := ((Twin.rotate.stands hback).pop hn (Function.update_self ..)).start_get hget
    have hwf'' : (q.start .get).1.WellFormed := hwf'.act (.start .get)
    refine ⟨[.start .get, .resume q.nextTask (.ok ())],
      ⟨trivial, admits_resume_get [] [] hwf'' hwait.tasks (.ok ()), trivial⟩,
      by simp [Action.isPut], .inr ⟨q.nextTask, [], .ok (), ?_, rfl, ?_⟩⟩
    · rw [start_of_get hget]
      rfl
    · refine answer?_resume_eq_some_iff.mpr ⟨.get ⟨q.rotation, 0, .validating 0⟩, ?_, rfl⟩
      exact hwf''.task?_eq_some_iff.mpr (hwait.tasks ▸ List.mem_cons_self)

end Laden

theorem laden_of_create {addresses : List String} {now : Duration}
    (hcreate : create config addresses now = .ok p) : p.Laden config addresses.length 0 := by
  refine ⟨(stands_of_create hcreate).congr (fun _ _ => rfl) fun j _ => by simp, ?_, ?_, ?_⟩
  · obtain ⟨_, _, rfl⟩ := eq_of_create hcreate
    rfl
  · obtain ⟨_, _, rfl⟩ := eq_of_create hcreate
    rfl
  · exact fun j hj => absurd hj (Nat.not_lt_zero j)

section Capped

variable {h k : Hand} {hs : List Hand}

/-- Idle queues are within their limit, and what a get validates was in one. -/
structure Capped (p : Pool) (h : Hand) (hs : List Hand) : Prop where
  idle : ∀ i, (p.shard i).idle.length ≤ p.config.maxIdle
  popped : ∀ x ∈ h :: hs, ∀ i c, x = .popped i c → 0 < p.config.maxIdle

namespace Capped

theorem shift (hp : p.Capped h hs) (hconfig : q.config = p.config)
    (hidle : ∀ i, (q.shard i).idle.length ≤ p.config.maxIdle)
    (hpopped : ∀ i c, k = .popped i c → 0 < p.config.maxIdle) : q.Capped k hs := by
  refine ⟨fun i => hconfig ▸ hidle i, fun x hx => ?_⟩
  rw [hconfig]
  obtain rfl | hx := List.mem_cons.mp hx
  · exact hpopped
  · exact hp.popped x (List.mem_cons_of_mem h hx)

theorem congr (hp : p.Capped h hs) (hconfig : q.config = p.config)
    (hidle : ∀ i, (q.shard i).idle = (p.shard i).idle)
    (hpopped : ∀ i c, k = .popped i c → h = .popped i c) : q.Capped k hs :=
  hp.shift hconfig (fun i => hidle i ▸ hp.idle i)
    fun i c hk => hp.popped h List.mem_cons_self i c (hpopped i c hk)

theorem move (hmove : Move (p, h) (q, k)) (hp : p.Capped h hs) : q.Capped k hs := by
  have hconfig : q.config = p.config := (Moves.single hmove).config_eq
  cases hmove with
  | quiet hquiet => exact hp.congr hconfig (fun i => by rw [shard, hquiet.shards, shard]) (by simp)
  | score hf => exact hp.congr hconfig (idle_modifyShard hf.idle) (by simp)
  | @pop _ i c rest hidle =>
    refine hp.shift hconfig (fun j => ?_) fun _ _ _ => ?_
    · rw [idle_dropIdle]
      split
      · exact Nat.le_trans (by simp) (hp.idle j)
      · exact hp.idle j
    · have hlen := hp.idle i
      rw [hidle, List.length_cons] at hlen
      omega
  | @enqueue _ i c hi _ hroom =>
    refine hp.shift hconfig (fun j => ?_) (by simp)
    rw [idle_enqueue hi]
    split
    · rename_i hij
      subst hij
      rw [List.length_append, List.length_singleton]
      exact hroom
    · exact hp.idle j
  | dial => exact hp.congr hconfig idle_dial (by simp)
  | failDial => exact hp.congr hconfig idle_failDial (by simp)
  | adopt | unlend => exact hp.congr hconfig (fun _ => rfl) (by simp)
  | @lend _ i c _ =>
    exact hp.congr hconfig
      (idle_modifyShard (p := p.modifyConn c _) (f := Shard.occupySlot) fun _ => rfl) (by simp)
  | promote | demote =>
    exact hp.congr hconfig (idle_modifyShard (p := { p with numAvailable := _ }) fun _ => rfl)
      (by simp)
  | _ => exact hp.congr hconfig (idle_modifyShard fun _ => rfl) (by simp)

end Capped

theorem invariant_capped : Invariant Capped where
  perm hperm hp := ⟨hp.idle, fun x hx => hp.popped x ((hperm.cons _).mem_iff.mpr hx)⟩
  alike halike hp :=
    hp.congr halike.config (fun i => by rw [shard, halike.shards, shard]) fun _ _ hk => hk
  move := Capped.move
  take hp := ⟨hp.idle, fun x hx => hp.popped x (List.mem_cons_of_mem _ hx)⟩
  park := by
    intro p h hs _ hp
    have hhanded : (p.handOver h).shards = p.shards ∧ (p.handOver h).config = p.config := by
      cases h <;> exact ⟨rfl, rfl⟩
    refine ⟨fun i => ?_, fun x hx i c hxc => ?_⟩
    · rw [shard, hhanded.1, hhanded.2, ← shard]
      exact hp.idle i
    · rw [hhanded.2]
      obtain rfl | hx := List.mem_cons.mp hx
      · cases hxc
      obtain rfl | hx := List.mem_cons.mp hx
      · exact hp.popped h List.mem_cons_self i c (by cases h <;> simp_all [Hand.parked])
      · exact hp.popped x (List.mem_cons_of_mem h hx) i c hxc
  tick _ hp := hp.congr rfl (fun _ => rfl) fun _ _ hk => hk
  recount := by
    intro p q hs hrecounted hp
    refine hp.congr hrecounted.config (fun i => ?_) fun _ _ hk => hk
    obtain ⟨t, ht⟩ := hrecounted.shard i
    rw [ht, Shard.count]

theorem capped_of_create {addresses : List String} {now : Duration}
    (hcreate : create config addresses now = .ok p) : p.Capped .free p.held := by
  have hstands := stands_of_create hcreate
  have hheld : p.held = [] := by rw [held, hstands.tasks, List.map_nil]
  refine ⟨fun i => ?_, fun x hx i c hxc => ?_⟩
  · by_cases hi : i < addresses.length
    · rw [(hstands.holds i hi).1]
      exact Nat.zero_le _
    · rw [shard_of_length_le (by rw [hstands.length]; omega)]
      exact Nat.zero_le _
  · rw [hheld, List.mem_singleton] at hx
    rw [hx] at hxc
    cases hxc

/-- Where no idle connection is kept, none is idle or validated. -/
theorem Capped.not_spare (hp : p.Capped .free p.held) (hmax : p.config.maxIdle = 0) {c : ConnId}
    (hc : (c : Nat) < p.conns.length) : ¬p.At c .idle ∧ ¬p.At c .validating := by
  constructor
  · rintro ⟨-, hcount, -⟩
    obtain ⟨i, hhome⟩ : ∃ i, p.home c = some i := by simp [home, hc]
    have hone := hcount i
    have hlen := hp.idle i
    rw [List.length_eq_zero_iff.mp (by omega : (p.shard i).idle.length = 0), if_pos hhome] at hone
    cases hone
  · rintro ⟨-, -, hvalid, -⟩
    have hsome : 0 < p.validations c := by omega
    obtain ⟨⟨id, t⟩, ht, hvalidates⟩ := List.countP_pos_iff.mp hsome
    unfold Task.validates at hvalidates
    dsimp only at hvalidates
    split at hvalidates
    · have hheld : Hand.popped _ _ ∈ p.held := List.mem_map_of_mem ht
      have hpos := hp.popped _ (List.mem_cons_of_mem _ hheld) _ _ rfl
      omega
    · cases hvalidates

/-- Where no idle connection is kept, every loan is of a freshly dialed connection. -/
theorem length_le_of_lends {addresses : List String} {now : Duration}
    (hcreate : create config addresses now = .ok p) (hmax : config.maxIdle = 0) {as : List Action}
    {a : Action} (hruns : p.Runs (as ++ [a])) {c : ConnId}
    (hlends : (p.after as).lends? a = some c) : (p.after as).conns.length ≤ c := by
  have hwf := WellFormed.of_create hcreate
  obtain ⟨hbefore, hact⟩ := runs_append.mp hruns
  have hconserved := invariant_conserved.after hbefore hwf (conserved_of_create hcreate)
  have hcapped := invariant_capped.after hbefore hwf (capped_of_create hcreate)
  have hnone : (p.after as).config.maxIdle = 0 := by
    rw [(fixed_after hbefore hwf).1, (stands_of_create hcreate).config, hmax]
  have hstep := lends_act (hwf.after as) hconserved (isPut_of_lends hlends)
  have hlent := isLent_of_answer (hwf.after as) hconserved (lends?_eq_some_iff.mp hlends)
  by_contra hlt
  obtain ⟨place, hplace⟩ := hconserved.exists_place (Nat.lt_of_not_le hlt)
  cases place with
  | lent => exact absurd hplace.1 (by simp [hstep.fresh c hlends])
  | idle => exact (hcapped.not_spare hnone (Nat.lt_of_not_le hlt)).1 hplace
  | validating => exact (hcapped.not_spare hnone (Nat.lt_of_not_le hlt)).2 hplace
  | closed =>
    have hcalls : 0 < (p.after as).closeCalls c := by
      have hone := hplace.2.2.2
      omega
    have hlater := hconserved.closed_after (hwf.after as) hcalls hact
    exact absurd hlent (by simp [show ((p.after as).act a).isLent c = false from hlater.1])

end Capped

end QuorumPool.Pool
