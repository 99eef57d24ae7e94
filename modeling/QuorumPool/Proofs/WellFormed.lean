import QuorumPool.Proofs.Effect

namespace QuorumPool.Pool

variable {p q : Pool}

theorem Moves.inRange {h k : Hand} (hmoves : Moves p h q k) (hp : p.InRange) : q.InRange := by
  refine hmoves.keeps (I := fun r _ => r.InRange) ?_ hp
  clear hmoves hp
  intro p h q k hmove hp
  have hlen : q.shards.length = p.shards.length := (Moves.single hmove).length_shards
  obtain ⟨hshards, hconns, hsuspects⟩ := hp
  constructor <;> rw [hlen]
  · exact hshards
  · intro conn hconn
    cases hmove with
    | quiet hquiet => exact hconns conn (hquiet.conns ▸ hconn)
    | adopt hi =>
      obtain hconn | hconn := List.mem_append.mp hconn
      · exact hconns conn hconn
      · rwa [List.mem_singleton.mp hconn]
    | @lend p i c _ =>
      obtain ⟨old, hold, hshard⟩ := shard_mem_modifyConn (p := p) (c := c)
        (g := fun conn => { conn with borrowed := true }) (fun _ => rfl) hconn
      exact hshard ▸ hconns old hold
    | @unlend p c _ _ _ =>
      obtain ⟨old, hold, hshard⟩ := shard_mem_modifyConn (p := p) (c := c)
        (g := fun conn => { conn with borrowed := false, lastUsed := p.now }) (fun _ => rfl) hconn
      exact hshard ▸ hconns old hold
    | _ => exact hconns conn hconn
  · intro i hi
    cases hmove with
    | quiet hquiet => exact (hquiet.suspects i hi).elim (hsuspects i) id
    | _ => exact hsuspects i hi

theorem Moves.wellFormed {h k : Hand} (hmoves : Moves p h q k) (hwf : p.WellFormed) :
    q.WellFormed := by
  refine ⟨hmoves.inRange hwf.toInRange, ?_, ?_, ?_, ?_⟩ <;>
    simp only [hmoves.tasks_eq, hmoves.nextTask_eq, hmoves.checker_eq, hmoves.length_shards]
  · exact hwf.verdicts
  · exact hwf.errand
  · exact hwf.ids
  · exact hwf.fresh

/-- Well-formedness speaks of nothing else than these. -/
theorem WellFormed.congr (hwf : p.WellFormed) (hlen : q.shards.length = p.shards.length)
    (hconns : q.conns = p.conns) (hsuspects : q.suspects = p.suspects) (htasks : q.tasks = p.tasks)
    (hnext : q.nextTask = p.nextTask) (hchecker : q.checker = p.checker) : q.WellFormed := by
  refine ⟨⟨?_, ?_, ?_⟩, ?_, ?_, ?_, ?_⟩ <;>
    simp only [hlen, hconns, hsuspects, htasks, hnext, hchecker]
  · exact hwf.shards
  · exact hwf.conns
  · exact hwf.suspects
  · exact hwf.verdicts
  · exact hwf.errand
  · exact hwf.ids
  · exact hwf.fresh

theorem WellFormed.askFor (hwf : p.WellFormed) (t : Task) : (p.askFor t).WellFormed := by
  obtain ⟨j, hj⟩ := exists_askFor_eq p t
  rw [hj]
  exact hwf.congr rfl rfl rfl rfl rfl rfl

/-- A verdict that a request asks for is on a shard of the pool. -/
theorem shard_lt_of_begin {request : Request} {v : Verdict}
    (hbegin : (p.begin request).2 = .waits (.verdict v)) : v.shard < p.shards.length := by
  cases request with
  | mark i healthy =>
    obtain ⟨u, hmark, hu⟩ := Progress.map_eq_waits.mp hbegin
    obtain rfl : u = v := by simpa using hu
    unfold mark at hmark
    split at hmark
    · obtain rfl : .deciding i healthy = u := by simpa using hmark
      assumption
    · cases hmark
  | strayPut => cases hbegin
  | _ =>
    obtain ⟨_, _, hs⟩ := Progress.map_eq_waits.mp hbegin
    cases hs

/-- A drain goes on at the shard where it began. -/
theorem shard_eq_of_drain {i drained : Nat} {v : Verdict}
    (hdrain : (p.drain i drained).2 = .waits v) : v.shard = i := by
  unfold drain at hdrain
  dsimp only at hdrain
  split at hdrain
  · obtain rfl := Progress.waits.inj hdrain
    rfl
  · cases hdrain

theorem shard_eq_of_resumeVerdict {u v : Verdict} {reply : Reply}
    (hresume : (p.resumeVerdict u reply).2 = .waits v) : v.shard = u.shard := by
  cases u with
  | deciding i healthy =>
    cases healthy with
    | true =>
      simp only [resumeVerdict, promote] at hresume
      split at hresume <;> cases hresume
    | false =>
      simp only [resumeVerdict, demote] at hresume
      split at hresume
      · cases hresume
      split at hresume
      · cases hresume
      · exact shard_eq_of_drain hresume
  | draining i c drained => exact shard_eq_of_drain hresume

/-- A task that waits for a verdict has been at it before, at the same shard. -/
theorem exists_verdict_of_advance {t : Task} {v : Verdict} {reply : Reply}
    (hadvance : (p.advance t reply).2 = .waits (.verdict v)) :
    ∃ u, t = .verdict u ∧ v.shard = u.shard := by
  cases t with
  | verdict u =>
    obtain ⟨s, hresume, hs⟩ := Progress.map_eq_waits.mp hadvance
    obtain rfl : s = v := by simpa using hs
    exact ⟨u, rfl, shard_eq_of_resumeVerdict hresume⟩
  | put c => cases hadvance
  | strayPut => cases hadvance
  | _ =>
    obtain ⟨_, _, hs⟩ := Progress.map_eq_waits.mp hadvance
    cases hs

theorem WellFormed.start (hwf : p.WellFormed) (request : Request) :
    (p.start request).1.WellFormed := by
  have hleads := leads_begin hwf request
  have hverdict : ∀ v, (p.begin request).2 = .waits (.verdict v) → v.shard < p.shards.length :=
    fun v => shard_lt_of_begin
  unfold Pool.start
  rcases hbegin : p.begin request with ⟨q, t | a⟩ <;> rw [hbegin] at hleads hverdict
  · have hmoves : Moves p .free q (t.hand p.shards.length) := hleads.moves
    refine WellFormed.askFor ?_ t
    have hin := hmoves.inRange hwf.toInRange
    refine ⟨⟨hin.shards, hin.conns, hin.suspects⟩, ?_, ?_, ?_, ?_⟩ <;>
      simp only [hmoves.tasks_eq, hmoves.nextTask_eq, hmoves.checker_eq, hmoves.length_shards]
    · intro id v hv
      obtain hv | hv := List.mem_append.mp hv
      · exact hwf.verdicts id v hv
      · simp only [List.mem_singleton, Prod.mk.injEq] at hv
        exact hverdict v (by rw [← hv.2])
    · exact hwf.errand
    · rw [List.map_append, List.nodup_append]
      refine ⟨hwf.ids, by simp, ?_⟩
      intro a ha b hb hab
      obtain ⟨x, hx, rfl⟩ := List.mem_map.mp ha
      have hlt := hwf.fresh x hx
      simp only [List.map_cons, List.map_nil, List.mem_singleton] at hb
      exact Nat.ne_of_lt hlt (hab.trans hb)
    · intro x hx
      obtain hx | hx := List.mem_append.mp hx
      · exact Nat.lt_succ_of_lt (hwf.fresh x hx)
      · simp [List.mem_singleton.mp hx]
  · exact hleads.moves.wellFormed hwf

theorem WellFormed.resume (hwf : p.WellFormed) (id : TaskId) (reply : Reply) :
    (p.resume id reply).1.WellFormed := by
  unfold Pool.resume
  split
  · exact hwf
  rename_i t ht
  obtain ⟨pre, post, hsplit, hother⟩ := hwf.exists_tasks_eq ht
  have hmem : (id, t) ∈ p.tasks := hsplit ▸ by simp
  have hold : ∀ v, t = .verdict v → v.shard < p.shards.length := by
    rintro v rfl
    exact hwf.verdicts id v hmem
  have hleads := leads_advance hwf.shards hold reply
  have hverdict : ∀ v, (p.advance t reply).2 = .waits (.verdict v) →
      ∃ u, t = .verdict u ∧ v.shard = u.shard :=
    fun v => exists_verdict_of_advance
  have hids := hwf.ids
  have hfresh := hwf.fresh
  rcases hadvance : p.advance t reply with ⟨q, t' | a⟩ <;> rw [hadvance] at hleads hverdict
  · have hmoves : Moves p (t.hand p.shards.length).parked q (t'.hand p.shards.length) :=
      hleads.moves
    have hin := hmoves.inRange hwf.toInRange
    refine WellFormed.askFor ?_ t'
    refine ⟨⟨hin.shards, hin.conns, hin.suspects⟩, ?_, ?_, ?_, ?_⟩ <;>
      simp only [hmoves.tasks_eq, hmoves.nextTask_eq, hmoves.checker_eq, hmoves.length_shards]
    · intro j v hv
      obtain ⟨⟨i, u⟩, hu, heq⟩ := List.mem_map.mp hv
      dsimp only at heq
      split at heq
      · obtain ⟨s, hs, hshard⟩ := hverdict v (by rw [(Prod.mk.inj heq).2])
        exact hshard ▸ hold s hs
      · exact hwf.verdicts j v (heq ▸ hu)
    · exact hwf.errand
    · rw [hsplit] at hids
      simpa only [hsplit, map_tasks hother, List.map_append, List.map_cons] using hids
    · intro x hx
      rw [hsplit, map_tasks hother] at hx
      obtain hx | hx := List.mem_append.mp hx
      · exact hfresh x (hsplit ▸ List.mem_append_left _ hx)
      obtain rfl | hx := List.mem_cons.mp hx
      · exact hfresh (id, t) hmem
      · exact hfresh x (hsplit ▸ List.mem_append_right _ (List.mem_cons_of_mem _ hx))
  · have hmoves : Moves p (t.hand p.shards.length).parked q .free := hleads.moves
    have hin := hmoves.inRange hwf.toInRange
    refine ⟨⟨hin.shards, hin.conns, hin.suspects⟩, ?_, ?_, ?_, ?_⟩ <;>
      simp only [hmoves.tasks_eq, hmoves.nextTask_eq, hmoves.checker_eq, hmoves.length_shards]
    · exact fun j v hv => hwf.verdicts j v (List.mem_filter.mp hv).1
    · exact hwf.errand
    · exact hids.sublist (List.Sublist.map _ List.filter_sublist)
    · exact fun x hx => hfresh x (List.mem_filter.mp hx).1

theorem WellFormed.setErrand (hwf : p.WellFormed) (due : Duration) {w : Progress Errand Unit}
    (hw : ∀ e, w = .waits e → e.inspection.shard < p.shards.length) :
    (p.setErrand due w).WellFormed := by
  cases w with
  | done _ =>
    refine ⟨⟨hwf.shards, hwf.conns, hwf.suspects⟩, hwf.verdicts, ?_, hwf.ids, hwf.fresh⟩
    intro due e he
    cases he
  | waits e =>
    have hset : { p with checker := .working due e }.WellFormed := by
      refine ⟨⟨hwf.shards, hwf.conns, hwf.suspects⟩, hwf.verdicts, ?_, hwf.ids, hwf.fresh⟩
      intro due' e' he
      cases he
      exact hw e rfl
    unfold Pool.setErrand
    dsimp only
    split
    · exact hset.congr rfl rfl rfl rfl rfl rfl
    · exact hset

theorem shard_inspect (p : Pool) (i : Nat) : (p.inspect i).shard = i := by
  unfold inspect
  split <;> rfl

/-- A sweep goes on to shards of the pool. -/
theorem shard_lt_of_sweepFrom {i : Nat} {e : Errand} (hsweep : p.sweepFrom i = .waits e) :
    e.inspection.shard < p.shards.length := by
  unfold sweepFrom at hsweep
  split at hsweep
  · rename_i j hj
    obtain rfl := Progress.waits.inj hsweep
    obtain ⟨k, hk, rfl⟩ := Option.map_eq_some_iff.mp hj
    have hlt := (List.findIdx?_eq_some_iff_findIdx_eq.mp hk).1
    rw [List.length_drop] at hlt
    change (p.inspect (i + k)).shard < _
    rw [shard_inspect]
    omega
  · cases hsweep

theorem shard_eq_of_resumeInspection {s u : Inspection} {reply : Reply}
    (hresume : (p.resumeInspection s reply).2 = .waits u) : u.shard = s.shard := by
  cases s with
  | checking i c =>
    unfold resumeInspection at hresume
    dsimp only at hresume
    split at hresume <;> obtain rfl := Progress.waits.inj hresume <;> rfl
  | judging v =>
    have hverdict : ∀ v', (p.resumeVerdict v reply).2 = .waits v' → v'.shard = v.shard :=
      fun v' => shard_eq_of_resumeVerdict
    simp only [resumeInspection] at hresume
    rcases hr : p.resumeVerdict v reply with ⟨q, v' | _⟩ <;> rw [hr] at hresume hverdict
    · obtain rfl := Progress.waits.inj hresume
      exact hverdict v' rfl
    · cases hresume

private theorem shard_lt_of_resumeErrand {e e' : Errand} {reply : Reply}
    (he : e.inspection.shard < p.shards.length)
    (hresume : p.resumeErrand e reply = (q, .waits e')) :
    e'.inspection.shard < q.shards.length := by
  have hlen : q.shards.length = p.shards.length := by
    have hleads := leads_resumeErrand he reply
    rw [hresume] at hleads
    exact hleads.moves.length_shards
  have hshard : ∀ u, (p.resumeInspection e.inspection reply).2 = .waits u →
      u.shard = e.inspection.shard :=
    fun u => shard_eq_of_resumeInspection
  unfold resumeErrand at hresume
  rcases hr : p.resumeInspection e.inspection reply with ⟨r, u | _⟩ <;> rw [hr] at hresume hshard
  · have hu := hshard u rfl
    cases e <;> cases hresume <;> simpa only [hlen, Errand.inspection, hu] using he
  · cases e with
    | recheck s => cases hresume
    | sweep s =>
      obtain ⟨rfl, hsweep⟩ := Prod.mk.inj hresume
      exact shard_lt_of_sweepFrom hsweep

theorem WellFormed.resumeErrand (hwf : p.WellFormed) {due : Duration} {e : Errand}
    (hchecker : p.checker = .working due e) (reply : Reply) :
    ((p.resumeErrand e reply).1.setErrand due (p.resumeErrand e reply).2).WellFormed := by
  have he := hwf.errand due e hchecker
  have hmoves := (leads_resumeErrand he reply).moves
  refine (hmoves.wellFormed hwf).setErrand due fun e' he' => ?_
  exact shard_lt_of_resumeErrand he (Prod.ext rfl he')

theorem WellFormed.turn (hwf : p.WellFormed) : p.turn.WellFormed := by
  unfold Pool.turn
  split
  · refine ⟨⟨hwf.shards, hwf.conns, hwf.suspects⟩, hwf.verdicts, ?_, hwf.ids, hwf.fresh⟩
    intro due e he
    cases he
  · rename_i due hchecker
    split
    · refine ⟨⟨hwf.shards, hwf.conns, ?_⟩, hwf.verdicts, ?_, hwf.ids, hwf.fresh⟩
      · intro i hi
        cases hi
      · intro due e he
        cases he
    split
    · rename_i i rest hsuspects
      let q : Pool := { p with suspects := rest }.note (.checkingSuspect (p.shard i).address)
      have hrest : ∀ j ∈ rest, j < p.shards.length := fun j hj =>
        hwf.suspects j (hsuspects ▸ List.mem_cons_of_mem i hj)
      have hq : q.WellFormed :=
        ⟨⟨hwf.shards, hwf.conns, hrest⟩, hwf.verdicts, hwf.errand, hwf.ids, hwf.fresh⟩
      refine hq.setErrand due fun e he => ?_
      obtain rfl := Progress.waits.inj he
      change (q.inspect i).shard < _
      rw [shard_inspect]
      exact hwf.suspects i (hsuspects ▸ List.mem_cons_self)
    · split
      · exact hwf.setErrand _ fun e he => shard_lt_of_sweepFrom he
      · exact hwf
  · rename_i due e hchecker
    split
    · exact hwf
    · exact hwf.resumeErrand hchecker (.ok ())
  · exact hwf

theorem WellFormed.resumeChecker (hwf : p.WellFormed) (reply : Reply) :
    (p.resumeChecker reply).WellFormed := by
  unfold Pool.resumeChecker
  split
  · rename_i due e hchecker
    split
    · exact hwf.resumeErrand hchecker reply
    · exact hwf
  · exact hwf

theorem WellFormed.act (hwf : p.WellFormed) (a : Action) : (p.act a).WellFormed := by
  cases a with
  | start request => exact hwf.start request
  | resume id reply => exact hwf.resume id reply
  | turn => exact hwf.turn
  | resumeChecker reply => exact hwf.resumeChecker reply
  | takeStats => exact hwf.congr (recounted_takeStats p).length_shards rfl rfl rfl rfl rfl
  | takeShardStats i =>
    exact hwf.congr (recounted_takeShardStats p i).length_shards rfl rfl rfl rfl rfl
  | setTime | abandon => exact hwf.congr rfl rfl rfl rfl rfl rfl

/-- No order of actions spoils a pool, not even one that is no run. -/
theorem WellFormed.after (hwf : p.WellFormed) (as : List Action) : (p.after as).WellFormed := by
  induction as generalizing p with
  | nil => exact hwf
  | cons a as ih => exact ih (hwf.act a)

/-- What every effect keeps holds after every run, if it held before. -/
theorem Invariant.after {I : Pool → Hand → List Hand → Prop} (hI : Invariant I)
    {as : List Action} (hruns : p.Runs as) (hwf : p.WellFormed) (hp : I p .free p.held) :
    I (p.after as) .free (p.after as).held := by
  have key : (p.after as).WellFormed ∧ I (p.after as) .free (p.after as).held := by
    refine hruns.keeps (I := fun r => r.WellFormed ∧ I r .free r.held) ?_ ⟨hwf, hp⟩
    rintro r a hadmits ⟨hr, hIr⟩
    exact ⟨hr.act a, hI.effect (effect_act hr hadmits) hIr⟩
  exact key.2

theorem invariant_fixed (config : Config) (n : Nat) :
    Invariant fun p _ _ => p.config = config ∧ p.shards.length = n where
  perm _ hp := hp
  alike halike hp := ⟨halike.config.trans hp.1, by rw [halike.shards, hp.2]⟩
  move hmove hp := by
    have hmoves := Moves.single hmove
    exact ⟨hmoves.config_eq.trans hp.1, hmoves.length_shards.trans hp.2⟩
  take hp := hp
  park := by
    intro p h hs _ hp
    cases h <;> exact hp
  tick _ hp := hp
  recount hrecounted hp := ⟨hrecounted.config.trans hp.1, hrecounted.length_shards.trans hp.2⟩

/-- The configuration and the number of shards never change. -/
theorem fixed_after {as : List Action} (hruns : p.Runs as) (hwf : p.WellFormed) :
    (p.after as).config = p.config ∧ (p.after as).shards.length = p.shards.length :=
  (invariant_fixed _ _).after hruns hwf ⟨rfl, rfl⟩

theorem fixed_act {a : Action} (hadmits : p.Admits a) (hwf : p.WellFormed) :
    (p.act a).config = p.config ∧ (p.act a).shards.length = p.shards.length :=
  have hruns : p.Runs [a] := ⟨hadmits, trivial⟩
  fixed_after hruns hwf

theorem addresses_modifyShard {i : Nat} {f : Shard → Shard}
    (hf : ∀ s, (f s).address = s.address) :
    (p.modifyShard i f).shards.map Shard.address = p.shards.map Shard.address := by
  refine List.ext_getElem (by simp [modifyShard]) fun j hj _ => ?_
  simp only [modifyShard, List.getElem_map, List.getElem_modify]
  split
  · exact hf _
  · rfl

private theorem addresses_count {i : Nat} {t : Tally → Tally} :
    (p.count i t).shards.map Shard.address = p.shards.map Shard.address :=
  addresses_modifyShard (f := fun s => s.count t) fun _ => rfl

private theorem Recounted.addresses (hrecounted : p.Recounted q) :
    q.shards.map Shard.address = p.shards.map Shard.address := by
  refine List.ext_getElem (by simp [hrecounted.length_shards]) fun i hi hi' => ?_
  rw [List.getElem_map, List.getElem_map]
  rw [List.length_map] at hi hi'
  obtain ⟨t, ht⟩ := hrecounted.shard i
  rw [← shard_eq_getElem hi, ← shard_eq_getElem hi', ht, Shard.count]

theorem invariant_addresses (addresses : List String) :
    Invariant fun p _ _ => p.shards.map Shard.address = addresses where
  perm _ hp := hp
  alike halike hp := halike.shards ▸ hp
  move := by
    intro p q h k hs hmove hp
    refine Eq.trans ?_ hp
    cases hmove with
    | quiet hquiet => rw [hquiet.shards]
    | score hf => exact addresses_modifyShard hf.address
    | adopt | unlend => rfl
    | lend => exact addresses_modifyShard (p := p.modifyConn ..) fun _ => rfl
    | promote | demote =>
      exact addresses_modifyShard (p := { p with numAvailable := _ }) fun _ => rfl
    | dial =>
      exact addresses_count.trans (addresses_modifyShard (f := Shard.occupySlot) fun _ => rfl)
    | failDial =>
      exact (addresses_modifyShard (f := Shard.releaseSlot) fun _ => rfl).trans addresses_count
    | _ => exact addresses_modifyShard fun _ => rfl
  take hp := hp
  park := by
    intro p h hs _ hp
    cases h <;> exact hp
  tick _ hp := hp
  recount hrecounted hp := hrecounted.addresses.trans hp

/-- What a fresh pool looks like. -/
theorem eq_of_create {config : Config} {addresses : List String} {now : Duration}
    (hcreate : create config addresses now = .ok p) :
    config.WellFormed ∧ addresses ≠ [] ∧
      p = ({ config, shards := addresses.map fun a => { address := a },
             numAvailable := addresses.length, now } : Pool).note
        (.poolStarted addresses.length (config.retryBudget addresses.length)) := by
  simp only [create, bind, Except.bind] at hcreate
  cases hvalid : config.validate with
  | error e =>
    rw [hvalid] at hcreate
    cases hcreate
  | ok _ =>
    rw [hvalid] at hcreate
    refine ⟨Config.validate_eq_ok_iff.mp hvalid, ?_⟩
    cases addresses with
    | nil => cases hcreate
    | cons a as =>
      cases hcreate
      exact ⟨List.cons_ne_nil a as, by simp [maxRetry]⟩

theorem length_shards_of_create {config : Config} {addresses : List String} {now : Duration}
    (hcreate : create config addresses now = .ok p) : p.shards.length = addresses.length := by
  obtain ⟨_, _, rfl⟩ := eq_of_create hcreate
  exact List.length_map ..

/-- A new shard has counted nothing and holds nothing. -/
theorem shard_of_create {config : Config} {addresses : List String} {now : Duration}
    (hcreate : create config addresses now = .ok p) {i : Nat} (hi : i < addresses.length) :
    p.shard i = { address := addresses[i] } := by
  obtain ⟨_, _, rfl⟩ := eq_of_create hcreate
  simp [shard, note, List.getD_eq_getElem?_getD, hi]

theorem WellFormed.of_create {config : Config} {addresses : List String} {now : Duration}
    (hcreate : create config addresses now = .ok p) : p.WellFormed := by
  obtain ⟨_, haddresses, rfl⟩ := eq_of_create hcreate
  refine ⟨⟨?_, ?_, ?_⟩, ?_, ?_, ?_, ?_⟩
  · simpa [note] using List.length_pos_iff.mpr haddresses
  · intro conn hconn
    cases hconn
  · intro i hi
    cases hi
  · intro id v hv
    cases hv
  · intro due e he
    cases he
  · exact List.nodup_nil
  · intro x hx
    cases hx

/-- The shards of a pool are, and stay, those of the addresses it was made for. -/
theorem addresses_after {config : Config} {addresses : List String} {now : Duration}
    (hcreate : create config addresses now = .ok p) {as : List Action} (hruns : p.Runs as) :
    (p.after as).shards.map Shard.address = addresses := by
  refine (invariant_addresses addresses).after hruns (.of_create hcreate) ?_
  obtain ⟨_, _, rfl⟩ := eq_of_create hcreate
  simp [note, Function.comp_def]

end QuorumPool.Pool
