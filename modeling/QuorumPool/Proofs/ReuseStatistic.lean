import QuorumPool.Proofs.Ceiling
import QuorumPool.Proofs.Excess

namespace QuorumPool.Pool

/-- Between the snapshot that the action `r` takes of shard `i`, after the actions `bs`, and the next
one, which tells `s` after the actions `cs`. No get waits at the shard when they are taken. -/
structure Window (p : Pool) (i : Nat) (bs : List Action) (r : Action) (cs : List Action)
    (s : ShardStats) : Prop where
  runs : p.Runs (bs ++ r :: cs)
  first : snapshots i (p.after bs) r ≠ []
  between : along (snapshots i) ((p.after bs).act r) cs = []
  last : ∃ r', snapshots i (p.after (bs ++ r :: cs)) r' = [s]
  quiet : ∀ id g, (id, .get g) ∈ (p.after bs).tasks → (p.after bs).visited g.start g.attempt ≠ i
  quiet' : ∀ id g, (id, .get g) ∈ (p.after (bs ++ r :: cs)).tasks →
    (p.after (bs ++ r :: cs)).visited g.start g.attempt ≠ i

variable {p q : Pool} {i : Nat} {a r : Action} {bs cs : List Action} {s : ShardStats}
  {config : Config} {addresses : List String} {now : Duration}

section Window

private theorem seeking_eq_zero
    (hquiet : ∀ id g, (id, .get g) ∈ p.tasks → p.visited g.start g.attempt ≠ i) :
    p.seeking i = 0 := by
  refine List.countP_eq_zero.mpr fun x hx => ?_
  obtain ⟨id, t⟩ := x
  cases t with
  | get g =>
    have hvisited := hquiet id g hx
    simp only [visited] at hvisited
    simp [Task.seeks, Getting.seeks, hvisited]
  | _ => exact Bool.false_ne_true

/-- A snapshot of a shard tells what it has counted and lets it count from zero. -/
theorem of_mem_snapshots (hs : s ∈ snapshots i p a) :
    i < p.shards.length ∧ s = (p.shard i).stats ∧
      (p.act a).shard i = ((p.shard i).count fun _ => {}) ∧ (p.act a).seeking i = p.seeking i := by
  cases a with
  | takeStats =>
    obtain ⟨hi, rfl⟩ : ∃ hi : i < p.shards.length, p.shards[i].stats = s := by
      simpa [snapshots, takeStats, List.getElem?_eq_some_iff] using hs
    exact ⟨hi, by rw [shard_eq_getElem hi], shard_takeStats hi,
      seeking_eq (p := p) (q := p.takeStats.1) rfl (by simp [takeStats]) i⟩
  | takeShardStats j =>
    simp only [snapshots] at hs
    split at hs
    · rename_i hji
      subst hji
      obtain ⟨hi, rfl⟩ : ∃ hi : j < p.shards.length, p.shards[j].stats = s := by
        simpa [takeShardStats, List.getElem?_eq_some_iff] using hs
      exact ⟨hi, by rw [shard_eq_getElem hi], shard_modifyShard_self hi,
        seeking_eq (p := p) (q := p.count j fun _ => {}) rfl length_shards_count j⟩
    · cases hs
  | _ => cases hs

private theorem snapshots_takeStats (hi : i < p.shards.length) :
    snapshots i p .takeStats = [(p.shard i).stats] := by
  simp [snapshots, takeStats, hi, shard_eq_getElem hi]

/-- What the later of two consecutive snapshots has of gets beyond dials. -/
theorem Window.gets_sub_dials (hcreate : create config addresses now = .ok p)
    (hwindow : p.Window i bs r cs s) :
    (s.tally.gets : Int) - s.tally.dials =
      (along (reuses i) ((p.after bs).act r) cs).length +
        (along refusals ((p.after bs).act r) cs).count i := by
  obtain ⟨hbefore, hadmits, hruns⟩ : _ ∧ _ ∧ _ := runs_append.mp hwindow.runs
  obtain ⟨s₀, hs₀⟩ := List.exists_mem_of_ne_nil _ hwindow.first
  obtain ⟨hi, -, hzero, hseeking⟩ := of_mem_snapshots hs₀
  obtain ⟨r', hlast⟩ := hwindow.last
  obtain ⟨-, rfl, -⟩ := of_mem_snapshots (hlast ▸ List.mem_singleton.mpr rfl)
  have hwf := (WellFormed.of_create hcreate).after bs
  have hconserved := invariant_conserved.after hbefore (.of_create hcreate)
    (conserved_of_create hcreate)
  have hlen := (fixed_act hadmits hwf).2
  have hgrown := grown_after hruns (hwf.act r)
    (invariant_conserved.effect (effect_act hwf hadmits) hconserved) (hlen ▸ hi) hwindow.between
  rw [Grown, ← after_append_cons, hzero, hseeking, seeking_eq_zero hwindow.quiet,
    seeking_eq_zero hwindow.quiet'] at hgrown
  simp only [Shard.excess, Shard.count, Shard.stats] at hgrown ⊢
  omega

end Window

section Unlimited

theorem refusal_serve (hlimit : p.config.maxActive = 0) (j : Nat) :
    (p.serve j).2.refusal j = [] := by
  have hroom : (p.shard j).hasRoom p.config.maxActive = true := by simp [Shard.hasRoom, hlimit]
  unfold serve
  dsimp only
  split
  · split
    · rfl
    split <;> rfl
  · rw [if_pos hroom]
    rfl

private theorem refusal_borrow (hlimit : p.config.maxActive = 0) (j : Nat) :
    (p.borrow j).2.refusal j = [] := by
  unfold borrow
  split
  · rfl
  · exact refusal_serve (p := p.count j Tally.countGet) hlimit j

private theorem refusedThere_eq_nil (hlimit : p.config.maxActive = 0) (j : Nat) (b : Borrowing)
    (reply : Reply) : p.refusedThere j b reply = [] := by
  cases b with
  | discarding c =>
    have hconfig := (Does.noteIdleClose p j reply).config
    exact refusal_serve (p := p.noteIdleClose j reply) (hconfig ▸ hlimit) j
  | validating c => cases reply <;> rfl
  | dialing => rfl

private theorem refusedOnVisits_eq_nil (hlimit : p.config.maxActive = 0)
    (start attempt left : Nat) :
    p.refusedOnVisits start attempt left = [] := by
  induction left generalizing p attempt with
  | zero => rfl
  | succ left ih =>
    unfold refusedOnVisits
    dsimp only
    split
    · split
      · rename_i q e heq
        have hconfig : q.config = p.config := (borrow_eq_error heq).config
        rw [refusal_borrow hlimit, List.nil_append]
        exact ih (hconfig ▸ hlimit) _
      · rfl
    · exact ih (p := p.rotate) hlimit _

/-- Without a limit no get is refused. -/
theorem refusals_eq_nil (hlimit : p.config.maxActive = 0) (a : Action) : p.refusals a = [] := by
  unfold refusals
  split
  · unfold refusedOnGet
    split
    · rfl
    · exact refusedOnVisits_eq_nil (p := p.rotate) hlimit _ _ _
  · split
    · rename_i g _
      have hconfig := (Does.resumeBorrow p (p.visited g.start g.attempt) g.borrowing ‹_›).config
      unfold refusedOnResume
      dsimp only
      split
      · rename_i q e heq
        rw [heq] at hconfig
        rw [refusedThere_eq_nil hlimit, List.nil_append]
        exact refusedOnVisits_eq_nil (hconfig ▸ hlimit) _ _ _
      · rfl
    · rfl
  · rfl

private theorem along_refusals_eq_nil {as : List Action} (hruns : p.Runs as) (hwf : p.WellFormed)
    (hlimit : p.config.maxActive = 0) : along refusals p as = [] := by
  induction as generalizing p with
  | nil => rfl
  | cons a as ih =>
    obtain ⟨hadmits, hon⟩ := hruns
    have hconfig := (fixed_act hadmits hwf).1
    rw [along, refusals_eq_nil hlimit, ih hon (hwf.act a) (hconfig ▸ hlimit), List.append_nil]

end Unlimited

section Full

variable {n : Nat}

theorem Stands.not_serves_of_full (hp : p.Stands config n (fun _ => []) (fun _ => config.maxActive) [])
    (hm : 0 < config.maxActive) (hi : i < n) : ¬(p.shard i).Serves p.config := by
  rw [hp.config, hp.serves_iff hm hi]
  simp

/-- When all shards are at the limit a get ends at once, and no shard lends. -/
theorem Stands.get_of_full (hp : p.Stands config n (fun _ => []) (fun _ => config.maxActive) [])
    (hm : 0 < config.maxActive) (hn : 0 < n) :
    ∃ q e, p.get = (q, .done (.error e)) ∧ q.tasks = [] := by
  have hget : p.get = p.rotate.visit p.rotation 0 p.maxRetry := by
    rw [get, hp.opened]
    rfl
  have hvisits := (visits p.rotate p.rotation 0 p.maxRetry).after .rotate
  rw [← hget] at hvisits
  have hborrow {q : Pool} (htwin : p.Twin q) (a : Nat) :
      ∃ r, q.borrow (p.visited p.rotation a) = (r, .done (.error .poolExhausted)) := by
    have hi : p.visited p.rotation a < n := hp.length ▸ Nat.mod_lt _ (hp.length ▸ hn)
    have hq := htwin.stands hp
    exact ⟨_, borrow_of_not_serves (hq.service _ hi).2 (hq.not_serves_of_full hm hi)⟩
  generalize hw : p.get = w at hvisits
  cases hvisits with
  | exhausted htwin => exact ⟨_, _, rfl, htwin.tasks.trans hp.tasks⟩
  | waits htwin _ heq =>
    obtain ⟨r, hr⟩ := hborrow htwin _
    cases hr.symm.trans heq
  | lends htwin _ heq =>
    obtain ⟨r, hr⟩ := hborrow htwin _
    cases hr.symm.trans heq

/-- The shard that it comes to first refuses it. -/
theorem Stands.mem_refusals (hp : p.Stands config n (fun _ => []) (fun _ => config.maxActive) [])
    (hm : 0 < config.maxActive) (hn : 0 < n) :
    p.visited p.rotation 0 ∈ p.refusals (.start .get) := by
  have hi : p.visited p.rotation 0 < n := hp.length ▸ Nat.mod_lt _ (hp.length ▸ hn)
  have hborrow := borrow_of_not_serves (p := p.rotate) (hp.service _ hi).2
    (hp.not_serves_of_full hm hi)
  have hvisited : p.rotate.visited p.rotation 0 = p.visited p.rotation 0 := rfl
  have havailable : (p.rotate.shard (p.visited p.rotation 0)).available = true :=
    (hp.service _ hi).1
  obtain ⟨left, hleft⟩ : ∃ left, p.maxRetry = left + 1 := by
    refine Nat.exists_eq_succ_of_ne_zero ?_
    rw [maxRetry, hp.length, Config.retryBudget]
    omega
  simp only [refusals, refusedOnGet, hp.opened, hleft, refusedOnVisits, hvisited, havailable, hborrow,
    Bool.false_eq_true, if_false, if_true]
  exact List.mem_append_left _ (List.mem_singleton.mpr rfl)

theorem Twin.takeStats (p : Pool) : p.Twin p.takeStats.1 := by
  obtain hrecounted := recounted_takeStats p
  refine ⟨rfl, hrecounted.length_shards, fun i => ?_, rfl, rfl, rfl, rfl, rfl⟩
  obtain ⟨t, ht⟩ := hrecounted.shard i
  exact ⟨_, _, ht⟩

/-- Where there is a limit, some get is refused in a window in which nothing is reused. -/
theorem exists_window_of_full (hp : (p.after bs).Stands config n (fun _ => [])
      (fun _ => config.maxActive) [])
    (hruns : p.Runs bs) (hm : 0 < config.maxActive) (hn : 0 < n) :
    ∃ i s, p.Window i bs .takeStats [.start .get] s ∧
      along (reuses i) ((p.after bs).act .takeStats) [.start .get] = [] ∧
      i ∈ along refusals ((p.after bs).act .takeStats) [.start .get] := by
  have hread : ((p.after bs).act .takeStats).Stands config n (fun _ => [])
      (fun _ => config.maxActive) [] := (Twin.takeStats _).stands hp
  have hafter : p.after (bs ++ [.takeStats, .start .get]) =
      ((p.after bs).act .takeStats).act (.start .get) := by
    rw [after_append]
    rfl
  have hmem := hread.mem_refusals hm hn
  obtain ⟨q, e, hget, htasks⟩ := hread.get_of_full hm hn
  generalize hr : (p.after bs).act .takeStats = r at hread hafter hmem hget
  have hi : r.visited r.rotation 0 < n := hread.length ▸ Nat.mod_lt _ (hread.length ▸ hn)
  have hstart : (r.act (.start .get)) = q := by
    simp only [act, start, begin, hget, Prod.map, Progress.map, id]
  have hlen : q.shards.length = n := by
    have hmoves := (Does.get r).length
    rw [hget, hread.length] at hmoves
    exact hmoves
  rw [hstart] at hafter
  refine ⟨r.visited r.rotation 0, (q.shard (r.visited r.rotation 0)).stats, ⟨?_, ?_, ?_, ?_, ?_, ?_⟩,
    ?_, ?_⟩
  · exact runs_append.mpr ⟨hruns, trivial, trivial, trivial⟩
  · rw [snapshots_takeStats (hp.length ▸ hi)]
    exact List.cons_ne_nil _ _
  · rfl
  · exact ⟨.takeStats, by rw [hafter, snapshots_takeStats (hlen ▸ hi)]⟩
  · simp [hp.tasks]
  · simp [hafter, htasks]
  · rw [along, along, reuses, lends?_start_get, hget]
    rfl
  · rw [along, along, List.append_nil]
    exact hmem

end Full

/-- Between two consecutive snapshots of a shard, with no get waiting there when they are taken, its
gets are ahead of its dials by those that were lent a connection which the shard had before, and by
those that the limit refused. So their difference is the number of the former, in every run, if and
only if there is no limit. -/
theorem reuse_statistic (hcreate : create config addresses now = .ok p) :
    (∀ i bs r cs s, p.Window i bs r cs s →
      s.tally.dials ≤ s.tally.gets ∧
      s.tally.gets - s.tally.dials = (along (reuses i) ((p.after bs).act r) cs).length +
        (along refusals ((p.after bs).act r) cs).count i) ∧
    ((∀ i bs r cs s, p.Window i bs r cs s →
      s.tally.gets - s.tally.dials = (along (reuses i) ((p.after bs).act r) cs).length) ↔
        config.maxActive = 0) := by
  have hwf := WellFormed.of_create hcreate
  have hstands := stands_of_create hcreate
  have hexact : ∀ i bs r cs s, p.Window i bs r cs s →
      s.tally.dials ≤ s.tally.gets ∧
      s.tally.gets - s.tally.dials = (along (reuses i) ((p.after bs).act r) cs).length +
        (along refusals ((p.after bs).act r) cs).count i := by
    intro i bs r cs s hwindow
    have hgets := hwindow.gets_sub_dials hcreate
    omega
  refine ⟨hexact, fun hall => ?_, fun hlimit i bs r cs s hwindow => ?_⟩
  · by_contra hm
    have hm : 0 < config.maxActive := Nat.pos_of_ne_zero hm
    obtain ⟨bs, hruns, hfull⟩ := hstands.exists_run_full hwf hm fun _ _ => Nat.zero_le _
    obtain ⟨i, s, hwindow, hreuses, hrefused⟩ :=
      exists_window_of_full hfull hruns hm (hstands.length ▸ hwf.shards)
    have hgets := (hexact _ _ _ _ _ hwindow).2
    have hclaimed := hall _ _ _ _ _ hwindow
    have hpos := List.count_pos_iff.mpr hrefused
    omega
  · obtain ⟨hbefore, hadmits, hruns⟩ : _ ∧ _ ∧ _ := runs_append.mp hwindow.runs
    have hwf' := hwf.after bs
    have hconfig : ((p.after bs).act r).config = config :=
      (fixed_act hadmits hwf').1.trans ((fixed_after hbefore hwf).1.trans hstands.config)
    have hnone := along_refusals_eq_nil hruns (hwf'.act r) (hconfig ▸ hlimit)
    rw [(hexact i bs r cs s hwindow).2, hnone, List.count_nil, Nat.add_zero]

/-- One shard that lends one connection at a time, and a get makes one attempt. -/
def oneAtATime : Pool where
  config := { maxActive := 1, minRetryAttempts := 1 }
  shards := [{ address := "a:1" }]
  numAvailable := 1
  journal := [.event (.poolStarted 1 1)]

/-- The connection is lent when the statistics are read, and the only get of the window that follows
is refused. It is told as one that was served without a dial. -/
theorem reuse_statistic_refused :
    create oneAtATime.config ["a:1"] .zero = .ok oneAtATime ∧
      ∃ s, oneAtATime.Window 0 [.start .get, .resume 0 (.ok ())] .takeStats [.start .get] s ∧
        s.tally.gets - s.tally.dials = 1 ∧
        along (reuses 0) (oneAtATime.after [.start .get, .resume 0 (.ok ()), .takeStats])
          [.start .get] = [] := by
  have hcreate : create oneAtATime.config ["a:1"] .zero = .ok oneAtATime := rfl
  have hquiet : (oneAtATime.after [.start .get, .resume 0 (.ok ())]).tasks = [] := rfl
  have hquiet' : (oneAtATime.after
      [.start .get, .resume 0 (.ok ()), .takeStats, .start .get]).tasks = [] := rfl
  have hwindow : oneAtATime.Window 0 [.start .get, .resume 0 (.ok ())] .takeStats [.start .get] _ :=
    ⟨by decide, by decide, by decide, ⟨.takeStats, rfl⟩, by simp [hquiet], by simp [hquiet']⟩
  refine ⟨hcreate, _, hwindow, ?_, by decide⟩
  exact ((reuse_statistic hcreate).1 _ _ _ _ _ hwindow).2.trans (by decide)

end QuorumPool.Pool
