import QuorumPool.Proofs.Answers
import QuorumPool.Proofs.Changes

namespace QuorumPool

/-- Whether the verdict drains the shard. -/
def Verdict.drains (i : Nat) : Verdict → Bool
  | deciding .. => false
  | draining j _ _ => j = i

def Inspection.drains (i : Nat) : Inspection → Bool
  | checking .. => false
  | judging v => v.drains i

def Closing.drains (i : Nat) : Closing → Bool
  | queued | joining => false
  | draining j _ _ => j = i

def Task.drains (i : Nat) : Task → Bool
  | verdict v => v.drains i
  | shutdown s => s.drains i
  | get _ | put _ | strayPut | check _ => false

def Checker.drains (i : Nat) : Checker → Bool
  | working _ e => e.inspection.drains i
  | spawned | waiting _ | stopped => false

/-- Whether the verdict takes the shard out of service, if it does anything. -/
def Verdict.demotes (i : Nat) : Verdict → Bool
  | deciding j healthy => j = i && !healthy
  | draining j _ _ => j = i

/-- Whether what is waited for is a drain; a result is none. -/
def Progress.drains {σ α : Type} (f : σ → Bool) : Progress σ α → Bool
  | waits s => f s
  | done _ => false

/-- Who drains a shard. -/
inductive Drainer where
  | task (id : TaskId)
  | checker

namespace Pool

/-- Whether the shard is being drained by the one given. -/
def drainedBy (p : Pool) (i : Nat) : Drainer → Bool
  | .task id => (p.task? id).any (·.drains i)
  | .checker => p.checker.drains i

/-- Shard `i` was in service, and is not, or was open, and is closed. -/
def Retired (p q : Pool) (i : Nat) : Prop :=
  (p.shard i).available = true ∧ (q.shard i).available = false ∨
    (p.shard i).closed = false ∧ (q.shard i).closed = true

/-- How an activity leaves shard `i` that takes a step from `p` to `q`, where `before` and `after`
say whether it drains the shard. -/
structure Drained (p q : Pool) (i : Nat) (before after : Bool) : Prop where
  /-- One that takes the shard out of service begins to drain it. -/
  retired : p.Retired q i → (q.shard i).idle = [] ∨ before = false ∧ after = true
  /-- A drain ends when the queue is empty. -/
  goesOn : before = true → (q.shard i).idle = [] ∨ after = true

variable {p q : Pool} {i : Nat} {l : List Change}

section Activity

theorem drain_cases (p : Pool) (i drained : Nat) :
    ((p.drain i drained).1.shard i).idle = [] ∨
      ∃ c, (p.drain i drained).2 = .waits (.draining i c drained) := by
  unfold drain
  dsimp only
  split
  · exact .inr ⟨_, rfl⟩
  · exact .inl ‹_›

/-- A demotion that is done has left nothing idle. -/
theorem demote_cases (p : Pool) (i : Nat) :
    (p.demote i).2 = .done false ∨ ((p.demote i).1.shard i).idle = [] ∨
      ∃ c, (p.demote i).2 = .waits (.draining i c 0) := by
  unfold demote
  dsimp only
  split
  · exact .inl rfl
  split
  · exact .inl rfl
  · exact .inr (drain_cases _ i 0)

/-- Flags that stay as they are take no shard out of service. -/
theorem not_retired (havailable : (q.shard i).available = (p.shard i).available)
    (hclosed : (q.shard i).closed = (p.shard i).closed) : ¬p.Retired q i := by
  rintro (⟨hp, hq⟩ | ⟨hp, hq⟩)
  · rw [havailable, hp] at hq
    cases hq
  · rw [hclosed, hp] at hq
    cases hq

/-- A shard in service that is not taken out of it stays in it. -/
theorem acceptsIdle_of_not_retired (hp : (p.shard i).acceptsIdle = true)
    (hretired : ¬p.Retired q i) : (q.shard i).acceptsIdle = true := by
  simp only [Retired, Shard.acceptsIdle, Bool.and_eq_true, Bool.not_eq_true'] at hp hretired ⊢
  simp only [hp, true_and, not_or, Bool.not_eq_false, Bool.not_eq_true] at hretired
  exact hretired

theorem Does.not_retired (hdoes : p.Does l q) (hl : ∀ c ∈ l, c.isCount = true) :
    ¬p.Retired q i :=
  Pool.not_retired (hdoes.available i (fun h => nomatch hl _ h) (fun h => nomatch hl _ h))
    (hdoes.closed i (fun h => nomatch hl _ h))

theorem drained_decide {j : Nat} (hj : j < p.shards.length) (healthy : Bool) (reply : Reply)
    (i : Nat) : Drained p (p.resumeVerdict (.deciding j healthy) reply).1 i false
      ((p.resumeVerdict (.deciding j healthy) reply).2.drains (Verdict.drains i)) := by
  have hdoes := Does.resumeVerdict p (.deciding j healthy) reply
  obtain ⟨hflag, hanswer⟩ := decides_resumeVerdict hj healthy reply
  have hclosed := hdoes.closed i fun hi => by
    obtain hi | hi := List.mem_append.mp hi
    · obtain hi | hi := eq_of_mem_decision hi <;> cases hi
    · cases Progress.isCount_of_mem (fun v => v.isCount_of_mem) hi
  refine ⟨fun hretired => ?_, nofun⟩
  obtain ⟨hp, hq⟩ | ⟨hp, hq⟩ := hretired
  · rw [hflag] at hq
    split at hq
    · rename_i hji
      subst hji
      rw [hp, Bool.true_xor, Bool.not_eq_false'] at hq
      cases healthy with
      | true => simp [flips, hp] at hq
      | false =>
        obtain hdone | hidle | ⟨c, hwaits⟩ := demote_cases p j
        · rw [hq] at hanswer
          obtain h | ⟨-, c, h⟩ := hanswer <;> cases h.symm.trans hdone
        · exact .inl hidle
        · refine .inr ⟨rfl, ?_⟩
          change (p.demote j).2.drains _ = true
          rw [hwaits]
          exact decide_eq_true rfl
    · rw [hp] at hq
      cases hq
  · rw [hclosed, hp] at hq
    cases hq

theorem drained_drain (p : Pool) (j c n : Nat) (reply : Reply) (i : Nat) :
    Drained p (p.resumeVerdict (.draining j c n) reply).1 i (Verdict.drains i (.draining j c n))
      ((p.resumeVerdict (.draining j c n) reply).2.drains (Verdict.drains i)) := by
  have hdoes := Does.resumeVerdict p (.draining j c n) reply
  refine ⟨fun hretired => absurd hretired (hdoes.not_retired fun d hd => ?_), fun hbefore => ?_⟩
  · exact Progress.isCount_of_mem (fun v => v.isCount_of_mem) hd
  · obtain rfl : j = i := by simpa [Verdict.drains] using hbefore
    refine (drain_cases (p.noteIdleClose j reply) j (n + 1)).imp_right ?_
    rintro ⟨d, hwaits⟩
    change ((p.noteIdleClose j reply).drain j (n + 1)).2.drains _ = true
    rw [hwaits]
    exact decide_eq_true rfl

theorem drained_resumeVerdict {v : Verdict} (hv : v.shard < p.shards.length) (reply : Reply)
    (i : Nat) : Drained p (p.resumeVerdict v reply).1 i (v.drains i)
      ((p.resumeVerdict v reply).2.drains (Verdict.drains i)) := by
  cases v with
  | deciding j healthy => exact drained_decide hv healthy reply i
  | draining j c n => exact drained_drain p j c n reply i

theorem drained_resumeInspection {s : Inspection} (hs : s.shard < p.shards.length) (reply : Reply)
    (i : Nat) : Drained p (p.resumeInspection s reply).1 i (s.drains i)
      ((p.resumeInspection s reply).2.drains (Inspection.drains i)) := by
  cases s with
  | checking j c =>
    have hdoes := Does.resumeInspection p (.checking j c) reply
    refine ⟨fun hretired => absurd hretired (hdoes.not_retired fun d hd => ?_), nofun⟩
    exact Progress.isCount_of_mem (fun s => s.isCount_of_mem) hd
  | judging v =>
    have hverdict := drained_resumeVerdict (v := v) hs reply i
    unfold resumeInspection
    dsimp only
    split <;> rename_i heq <;> rw [heq] at hverdict <;> exact hverdict

theorem drained_resumeErrand {e : Errand} (he : e.inspection.shard < p.shards.length)
    (reply : Reply) (i : Nat) : Drained p (p.resumeErrand e reply).1 i (e.inspection.drains i)
      ((p.resumeErrand e reply).2.drains fun e => e.inspection.drains i) := by
  have hinspection := drained_resumeInspection he reply i
  unfold resumeErrand
  rcases hr : p.resumeInspection e.inspection reply with ⟨q, s | _⟩ <;> rw [hr] at hinspection
  · cases e <;> exact hinspection
  · -- The inspection is over, so what it drained is empty and what it retired is too.
    have hdone : ∀ after, Drained p q i (e.inspection.drains i) after := fun after =>
      ⟨fun h => .inl ((hinspection.retired h).resolve_right fun h => nomatch h.2),
        fun h => .inl ((hinspection.goesOn h).resolve_right nofun)⟩
    cases e <;> exact hdone _

/-- An idle queue stays empty while shards are shut. -/
theorem idle_closeLast (left : Nat) (hidle : (p.shard i).idle = []) :
    ((p.closeLast left).1.shard i).idle = [] := by
  obtain ⟨js, -, hdoes⟩ := Does.closeLast p left
  refine hdoes.empty i (fun h => ?_) hidle
  obtain h | h := List.mem_append.mp h
  · obtain ⟨k, -, hk⟩ := List.mem_map.mp h
    cases hk
  · cases Progress.isCount_of_mem (fun s => s.isCount_of_mem) h

/-- The shards that are shut one after the other have nothing idle, but for the one at which this
comes to wait. -/
theorem closeLast_cases (p : Pool) (left i : Nat) :
    ((p.closeLast left).1.shard i).closed = (p.shard i).closed ∨
      ((p.closeLast left).1.shard i).idle = [] ∨
      ∃ c, (p.closeLast left).2 = .waits (.draining i c 0) := by
  induction left generalizing p with
  | zero => exact .inl rfl
  | succ left ih =>
    let j := p.shards.length - (left + 1)
    let r := p.modifyShard j fun s => { s with closed := true }
    have hclosed : j ≠ i → (r.shard i).closed = (p.shard i).closed := fun hji => by
      rw [shard_modifyShard_of_ne hji]
    unfold closeLast
    dsimp only
    split
    · by_cases hji : j = i
      · subst hji
        exact .inr (.inr ⟨_, rfl⟩)
      · have hdrop : (((r.dropIdle j).count j Tally.countClose).shard i).closed =
            (r.shard i).closed := by
          rw [count, dropIdle, shard_modifyShard_of_ne hji, shard_modifyShard_of_ne hji]
        exact .inl (hdrop.trans (hclosed hji))
    · rename_i hidle
      by_cases hji : j = i
      · exact .inr (.inl (idle_closeLast left (hji ▸ hidle)))
      · exact (ih (r.note _)).imp_left fun h => h.trans (hclosed hji)

/-- A shutdown goes on to drain the shard that it is at, without a change of its flags. -/
theorem closeOn_self (p : Pool) (i n : Nat) :
    ((p.closeOn i n).1.shard i).idle = [] ∨
      ((p.closeOn i n).1.shard i).closed = (p.shard i).closed ∧
        ∃ c, (p.closeOn i n).2 = .waits (.draining i c n) := by
  unfold closeOn
  split
  · have hdoes : p.Does [.counts i .closes] ((p.dropIdle i).count i Tally.countClose) :=
      Does.countClose.after .dropIdle
    exact .inr ⟨hdoes.closed i (by simp), _, rfl⟩
  · exact .inl (idle_closeLast _ ‹_›)

private theorem closeOn_of_ne {j : Nat} (hji : j ≠ i) (p : Pool) (n : Nat) :
    ((p.closeOn j n).1.shard i).closed = (p.shard i).closed ∨
      ((p.closeOn j n).1.shard i).idle = [] ∨
      ∃ c, (p.closeOn j n).2 = .waits (.draining i c 0) := by
  unfold closeOn
  split
  · refine .inl ?_
    rw [count, dropIdle, shard_modifyShard_of_ne hji, shard_modifyShard_of_ne hji]
  · exact closeLast_cases (p.note _) _ i

/-- A shutdown puts no shard out of service but by shutting it. -/
theorem retired_resumeShutdown {s : Closing} {reply : Reply}
    (hretired : p.Retired (p.resumeShutdown s reply).1 i) :
    ((p.resumeShutdown s reply).1.shard i).closed ≠ (p.shard i).closed := by
  obtain ⟨hp, hq⟩ | ⟨hp, hq⟩ := hretired
  · obtain ⟨js, -, hdoes⟩ := Does.resumeShutdown p s reply
    have hflag := hdoes.available i (fun h => ?_) (fun h => ?_)
    · rw [hflag, hp] at hq
      cases hq
    all_goals
      obtain h | h := List.mem_append.mp h
      · obtain ⟨k, -, hk⟩ := List.mem_map.mp h
        cases hk
      · cases Progress.isCount_of_mem (fun s => s.isCount_of_mem) h
  · rw [hp, hq]
    nofun

theorem drained_resumeShutdown (p : Pool) (s : Closing) (reply : Reply) (i : Nat) :
    Drained p (p.resumeShutdown s reply).1 i (s.drains i)
      ((p.resumeShutdown s reply).2.drains (Closing.drains i)) := by
  cases s with
  | queued =>
    refine ⟨fun hretired => ?_, fun hbefore => by cases hbefore⟩
    have hclosed := retired_resumeShutdown hretired
    by_cases hunder : p.shutdownUnderWay = true
    · simp only [resumeShutdown, hunder, if_true] at hclosed
      exact absurd rfl hclosed
    · simp only [resumeShutdown, hunder, Bool.false_eq_true, if_false] at hclosed
      refine absurd ((Does.enterShutdown p).closed i fun h => ?_) hclosed
      cases Progress.isCount_of_mem (fun s => s.isCount_of_mem) h
  | joining =>
    refine ⟨fun hretired => ?_, fun hbefore => by cases hbefore⟩
    have hclosed := retired_resumeShutdown hretired
    by_cases hstopped : p.checker = .stopped
    · simp only [resumeShutdown, hstopped, if_true] at hclosed ⊢
      refine ((closeLast_cases p p.shards.length i).resolve_left hclosed).imp_right ?_
      rintro ⟨c, hwaits⟩
      rw [hwaits]
      exact ⟨rfl, decide_eq_true rfl⟩
    · simp only [resumeShutdown, hstopped, if_false] at hclosed
      exact absurd rfl hclosed
  | draining j c n =>
    have hshard : ((p.noteIdleClose j reply).shard i).closed = (p.shard i).closed :=
      ((Does.noteIdleClose p j reply).closed i (by simp))
    by_cases hji : j = i
    · subst hji
      obtain hidle | ⟨hclosed, d, hwaits⟩ := closeOn_self (p.noteIdleClose j reply) j (n + 1)
      · exact ⟨fun _ => .inl hidle, fun _ => .inl hidle⟩
      · refine ⟨fun hretired => ?_, fun _ => .inr ?_⟩
        · exact absurd (hclosed.trans hshard) (retired_resumeShutdown hretired)
        · change ((p.noteIdleClose j reply).closeOn j (n + 1)).2.drains _ = true
          rw [hwaits]
          exact decide_eq_true rfl
    · refine ⟨fun hretired => ?_,
        fun hbefore => absurd (by simpa [Closing.drains] using hbefore) hji⟩
      have hclosed := retired_resumeShutdown hretired
      obtain h | hidle | ⟨d, hwaits⟩ := closeOn_of_ne hji (p.noteIdleClose j reply) (n + 1)
      · exact absurd (h.trans hshard) hclosed
      · exact .inl hidle
      · refine .inr ⟨decide_eq_false hji, ?_⟩
        change ((p.noteIdleClose j reply).closeOn j (n + 1)).2.drains _ = true
        rw [hwaits]
        exact decide_eq_true rfl

theorem Progress.drains_map {σ α τ β : Type} {f : σ → Bool} {f' : τ → Bool} {g : σ → τ} {a : α → β}
    (hf : ∀ s, f' (g s) = f s) (w : Progress σ α) : (w.map g a).drains f' = w.drains f := by
  cases w with
  | waits s => exact hf s
  | done _ => rfl

theorem drained_advance {t : Task} (ht : ∀ v, t = .verdict v → v.shard < p.shards.length)
    (reply : Reply) (i : Nat) : Drained p (p.advance t reply).1 i (t.drains i)
      ((p.advance t reply).2.drains (Task.drains i)) := by
  cases t with
  | get g =>
    refine ⟨fun hretired => absurd hretired ((Does.resumeGet p g reply).not_retired fun c => ?_),
      nofun⟩
    exact g.borrowing.isCount_of_mem_resumed
      (fun c => Progress.isCount_of_mem fun g' => g'.borrowing.isCount_of_mem)
  | put c => exact ⟨fun h => absurd h (not_retired rfl rfl), nofun⟩
  | strayPut => cases reply <;> exact ⟨fun h => absurd h (not_retired rfl rfl), nofun⟩
  | verdict v =>
    change Drained p _ i _ (((p.resumeVerdict v reply).2.map Task.verdict Answer.changed).drains _)
    rw [Progress.drains_map (f := Verdict.drains i) (g := Task.verdict) fun _ => rfl]
    exact drained_resumeVerdict (ht v rfl) reply i
  | check c =>
    exact ⟨fun h => absurd h ((Does.resumeCheck p c reply).not_retired (by simp)), nofun⟩
  | shutdown s =>
    change Drained p _ i _
      (((p.resumeShutdown s reply).2.map Task.shutdown fun _ => Answer.shutDown).drains _)
    rw [Progress.drains_map (f := Closing.drains i) (g := Task.shutdown) fun _ => rfl]
    exact drained_resumeShutdown p s reply i

end Activity

section Act

variable {a : Action} {d : Drainer}

/-- What leaves shard `i` alone keeps the drains of it. -/
theorem Drained.of_shards (hshards : q.shards = p.shards) {before after : Bool}
    (hgoesOn : before = true → after = true) : Drained p q i before after := by
  have hshard : q.shard i = p.shard i := by rw [shard, hshards, shard]
  exact ⟨fun h => absurd h (not_retired (by rw [hshard]) (by rw [hshard])),
    fun h => .inr (hgoesOn h)⟩

theorem Drained.congr {before after after' : Bool} (hdrained : Drained p q i before after)
    {r : Pool} (hshards : r.shards = q.shards) (hafter : after = true → after' = true) :
    Drained p r i before after' := by
  have hshard : r.shard i = q.shard i := by rw [shard, hshards, shard]
  obtain ⟨hretired, hgoesOn⟩ := hdrained
  constructor
  · intro h
    unfold Retired at h hretired
    rw [hshard] at h ⊢
    exact (hretired h).imp_right (.imp_right hafter)
  · intro h
    rw [hshard]
    exact (hgoesOn h).imp_right hafter

/-- The check of a shard begins with a probe, if the configuration allows any. -/
theorem asks_inspect (p : Pool) (i : Nat) {call : Call} (hcall : call ∈ (p.inspect i).call?) :
    ∃ address, call = .probe address := by
  unfold inspect check nextAttempt at hcall
  split at hcall
  · rename_i heq
    split at heq
    · obtain rfl := Progress.waits.inj heq
      exact ⟨_, (Option.some.inj hcall).symm⟩
    · cases heq
  · cases hcall

/-- A turn goes on with the errand under way, or leaves the shards alone and at most probes one. -/
theorem turn_cases (p : Pool) :
    (∃ due e, p.checker = .working due e ∧
      p.turn = (p.resumeErrand e (.ok ())).1.setErrand due (p.resumeErrand e (.ok ())).2) ∨
    p.turn.shards = p.shards ∧ (p.checker.drains i = true → p.turn.checker.drains i = true) ∧
      ∃ probes, p.turn.calls = p.calls ++ probes ∧
        ∀ call ∈ probes, ∃ address, call = .probe address := by
  have hsame : ∃ probes, p.calls = p.calls ++ probes ∧
      ∀ call ∈ probes, ∃ address, call = .probe address := ⟨[], by simp⟩
  unfold turn
  split
  · exact .inr ⟨rfl, fun h => by simp_all [Checker.drains], (calls_note _ _).symm ▸ hsame⟩
  · rename_i hwaiting
    have hnone : ∀ b, p.checker.drains i = true → b = true := by simp [hwaiting, Checker.drains]
    split
    · exact .inr ⟨rfl, hnone _, (calls_note _ _).symm ▸ hsame⟩
    split
    · rename_i due _ _ j rest _
      let q : Pool := { p with suspects := rest }.note (.checkingSuspect (p.shard j).address)
      have hcalls := calls_setErrand q due (.waits (.recheck (q.inspect j)))
      rw [show q.calls = p.calls from calls_note _ _] at hcalls
      exact .inr ⟨shards_setErrand _ _ _, hnone _, _, hcalls,
        fun call hcall => asks_inspect q j (Option.mem_toList.mp hcall)⟩
    · split
      · refine .inr
          ⟨shards_setErrand _ _ _, hnone _, _, calls_setErrand _ _ _, fun call hcall => ?_⟩
        unfold sweepFrom at hcall
        split at hcall
        · exact asks_inspect _ _ (Option.mem_toList.mp hcall)
        · cases hcall
      · exact .inr ⟨rfl, id, hsame⟩
  · rename_i due e hworking
    split
    · exact .inr ⟨rfl, id, hsame⟩
    · exact .inl ⟨due, e, hworking, rfl⟩
  · exact .inr ⟨rfl, id, hsame⟩

theorem drained_errand (hwf : p.WellFormed) {due : Duration} {e : Errand}
    (hworking : p.checker = .working due e) (reply : Reply) (i : Nat) :
    Drained p ((p.resumeErrand e reply).1.setErrand due (p.resumeErrand e reply).2) i
      (p.checker.drains i)
      (((p.resumeErrand e reply).1.setErrand due (p.resumeErrand e reply).2).checker.drains i) := by
  obtain ⟨journal, heq⟩ := exists_setErrand_eq (p.resumeErrand e reply).1 due
    (p.resumeErrand e reply).2
  rw [heq, hworking]
  refine (drained_resumeErrand (hwf.errand due e hworking) reply i).congr rfl fun h => ?_
  cases hr : (p.resumeErrand e reply).2 with
  | waits e' => rwa [hr] at h
  | done _ =>
    rw [hr] at h
    cases h

/-- Its own steps apart, nothing ends a task's drain. -/
theorem drainedBy_task_act (hwf : p.WellFormed) {id : TaskId} (ha : ∀ reply, a ≠ .resume id reply)
    (hdrains : p.drainedBy i (.task id) = true) : (p.act a).drainedBy i (.task id) = true := by
  obtain ⟨t, ht, htrue⟩ := (Option.any_eq_true ..).mp hdrains
  exact (Option.any_eq_true ..).mpr ⟨t, task?_act_of_ne hwf ht ha, htrue⟩

/-- No request that begins takes a shard out of service. -/
theorem not_retired_start (p : Pool) (request : Request) (i : Nat) :
    ¬p.Retired (p.start request).1 i := by
  obtain ⟨l, hdoes, hl⟩ := Does.exists_begin p request
  obtain ⟨tasks, nextTask, journal, heq⟩ := exists_start_eq p request
  have hnone : ∀ c ∈ l, c ≠ .promotes i ∧ c ≠ .demotes i ∧ c ≠ .shuts i := by
    intro c hc
    obtain hcount | ⟨j, rfl, -⟩ := hl c hc
    · refine ⟨?_, ?_, ?_⟩ <;> rintro rfl <;> cases hcount
    · exact ⟨nofun, nofun, nofun⟩
  rw [heq]
  refine not_retired ?_ (hdoes.closed i fun h => (hnone _ h).2.2 rfl)
  exact hdoes.available i (fun h => (hnone _ h).1 rfl) (fun h => (hnone _ h).2.1 rfl)

theorem drained_start (p : Pool) (request : Request) (i : Nat) :
    Drained p (p.start request).1 i (p.checker.drains i)
      ((p.start request).1.checker.drains i) := by
  obtain ⟨l, hdoes, -⟩ := Does.exists_begin p request
  obtain ⟨tasks, nextTask, journal, heq⟩ := exists_start_eq p request
  have hchecker : (p.start request).1.checker = p.checker := by
    rw [heq]
    exact hdoes.checker
  exact ⟨fun h => absurd h (not_retired_start p request i), fun h => .inr (hchecker ▸ h)⟩

theorem drained_resume (hwf : p.WellFormed) {id : TaskId} {t : Task} (ht : p.task? id = some t)
    (reply : Reply) (i : Nat) : Drained p (p.resume id reply).1 i (p.drainedBy i (.task id))
      ((p.resume id reply).1.drainedBy i (.task id)) := by
  have hverdict : ∀ v, t = .verdict v → v.shard < p.shards.length := by
    rintro v rfl
    exact hwf.verdicts id v (hwf.task?_eq_some_iff.mp ht)
  have hbefore : p.drainedBy i (.task id) = t.drains i := by rw [drainedBy, ht, Option.any_some]
  rw [hbefore]
  refine (drained_advance hverdict reply i).congr (shards_resume ht reply) fun h => ?_
  cases hadvance : (p.advance t reply).2 with
  | waits t' =>
    rw [hadvance] at h
    rw [drainedBy, task?_resume hwf ht hadvance, Option.any_some]
    exact h
  | done _ =>
    rw [hadvance] at h
    cases h

private theorem drained_recounted (hrecounted : p.Recounted q) (before : Bool) :
    Drained p q i before before := by
  obtain ⟨t, ht⟩ := hrecounted.shard i
  exact ⟨fun h => absurd h (not_retired (by rw [ht]; rfl) (by rw [ht]; rfl)), .inr⟩

/-- With every action one activity takes a step at most, and the drains of all others go on. -/
theorem exists_drainer (hwf : p.WellFormed) (a : Action) (i : Nat) :
    ∃ d, Drained p (p.act a) i (p.drainedBy i d) ((p.act a).drainedBy i d) ∧
      ∀ d', d' ≠ d → p.drainedBy i d' = true → (p.act a).drainedBy i d' = true := by
  have htasks : (∀ id reply, a ≠ .resume id reply) → ∀ d', d' ≠ .checker →
      p.drainedBy i d' = true → (p.act a).drainedBy i d' = true := by
    intro ha d' hd' hdrains
    cases d' with
    | task id => exact drainedBy_task_act hwf (ha id) hdrains
    | checker => exact absurd rfl hd'
  cases a with
  | start request => exact ⟨.checker, drained_start p request i, htasks (by simp)⟩
  | resume id reply =>
    cases ht : p.task? id with
    | none =>
      have hsame : p.act (.resume id reply) = p := by
        change (p.resume id reply).1 = p
        simp only [Pool.resume, ht]
      rw [hsame]
      exact ⟨.checker, .of_shards rfl fun h => h, fun _ _ h => h⟩
    | some t =>
      refine ⟨.task id, drained_resume hwf ht reply i, fun d' hd' hdrains => ?_⟩
      cases d' with
      | task other =>
        refine drainedBy_task_act hwf (fun r hr => hd' ?_) hdrains
        rw [(Action.resume.inj hr).1]
      | checker =>
        obtain ⟨l, hdoes, -⟩ := Does.exists_advance p t reply
        obtain ⟨tasks, journal, heq⟩ := exists_resume_eq ht reply
        change (p.resume id reply).1.checker.drains i = true
        rw [heq]
        exact hdoes.checker ▸ hdrains
  | turn =>
    refine ⟨.checker, ?_, htasks (by simp)⟩
    change Drained p p.turn i (p.checker.drains i) (p.turn.checker.drains i)
    obtain ⟨due, e, hworking, hturn⟩ | ⟨hshards, hdrains, -⟩ := turn_cases (i := i) p
    · rw [hturn]
      exact drained_errand hwf hworking (.ok ()) i
    · exact .of_shards hshards hdrains
  | resumeChecker reply =>
    refine ⟨.checker, ?_, htasks (by simp)⟩
    change Drained p (p.resumeChecker reply) i (p.checker.drains i)
      ((p.resumeChecker reply).checker.drains i)
    unfold resumeChecker
    split
    · rename_i due e hworking
      split
      · exact drained_errand hwf hworking reply i
      · exact .of_shards rfl fun h => h
    · exact .of_shards rfl fun h => h
  | takeStats => exact ⟨.checker, drained_recounted (recounted_takeStats p) _, htasks (by simp)⟩
  | takeShardStats j =>
    exact ⟨.checker, drained_recounted (recounted_takeShardStats p j) _, htasks (by simp)⟩
  | setTime now =>
    exact ⟨.checker, .of_shards (p := p) (q := p.setTime now) rfl fun h => h, htasks (by simp)⟩
  | abandon =>
    exact ⟨.checker, .of_shards (p := p) (q := p.abandon) rfl fun h => h, htasks (by simp)⟩

theorem idle_errand (hidle : (p.shard i).idle = []) (due : Duration) (e : Errand) (reply : Reply) :
    (((p.resumeErrand e reply).1.setErrand due (p.resumeErrand e reply).2).shard i).idle = [] := by
  rw [shard, shards_setErrand]
  refine (Does.resumeErrand p e reply).empty i (fun h => ?_) hidle
  obtain h | h := List.mem_append.mp h
  · unfold judgement at h
    split at h
    · cases h
    · obtain h | h := eq_of_mem_decision h <;> cases h
  · cases Progress.isCount_of_mem (fun s => s.isCount_of_mem) h

/-- No connection joins the queue of a shard that does not accept it. -/
theorem idle_act (hout : (p.shard i).acceptsIdle = false) (hidle : (p.shard i).idle = [])
    (a : Action) : ((p.act a).shard i).idle = [] := by
  cases a with
  | start request =>
    obtain ⟨l, hdoes, hl⟩ := Does.exists_begin p request
    obtain ⟨tasks, nextTask, journal, heq⟩ := exists_start_eq p request
    change ((p.start request).1.shard i).idle = []
    rw [heq]
    refine hdoes.empty i (fun h => ?_) hidle
    obtain h | ⟨j, hj, haccepts⟩ := hl _ h
    · cases h
    · obtain rfl := Change.queues.inj hj
      rw [hout] at haccepts
      cases haccepts
  | resume id reply =>
    change ((p.resume id reply).1.shard i).idle = []
    cases ht : p.task? id with
    | none =>
      simp only [Pool.resume, ht]
      exact hidle
    | some t =>
      obtain ⟨l, hdoes, hl⟩ := Does.exists_advance p t reply
      rw [shard, shards_resume ht reply]
      exact hdoes.empty i (hl i) hidle
  | turn =>
    change (p.turn.shard i).idle = []
    obtain ⟨due, e, -, hturn⟩ | ⟨hshards, -⟩ := turn_cases (i := i) p
    · rw [hturn]
      exact idle_errand hidle due e (.ok ())
    · rw [shard, hshards]
      exact hidle
  | resumeChecker reply =>
    change ((p.resumeChecker reply).shard i).idle = []
    unfold resumeChecker
    split
    · split
      · exact idle_errand hidle _ _ reply
      · exact hidle
    · exact hidle
  | takeStats =>
    obtain ⟨t, ht⟩ := (recounted_takeStats p).shard i
    exact (congrArg Shard.idle ht).trans hidle
  | takeShardStats j =>
    obtain ⟨t, ht⟩ := (recounted_takeShardStats p j).shard i
    exact (congrArg Shard.idle ht).trans hidle
  | setTime | abandon => exact hidle

end Act

section Run

variable {as : List Action}

/-- In the run `as` one action was the latest to take shard `i` out of service or to close it, and
someone who did not drain the shard before this action has drained it ever since. -/
def DrainedSince (p : Pool) (as : List Action) (i : Nat) : Prop :=
  ∃ bs a cs d, as = bs ++ a :: cs ∧ (p.after bs).Retired (p.after (bs ++ [a])) i ∧
    (∀ ds b, ds ++ [b] <+: cs →
      ¬(p.after (bs ++ a :: ds)).Retired (p.after (bs ++ a :: (ds ++ [b]))) i) ∧
    (p.after bs).drainedBy i d = false ∧
    ∀ ds, ds <+: cs → (p.after (bs ++ a :: ds)).drainedBy i d = true

/-- A drain that begins with the last action. -/
theorem DrainedSince.begin {a : Action} {d : Drainer}
    (hretired : (p.after as).Retired ((p.after as).act a) i)
    (hbefore : (p.after as).drainedBy i d = false)
    (hafter : ((p.after as).act a).drainedBy i d = true) : p.DrainedSince (as ++ [a]) i := by
  refine ⟨as, a, [], d, rfl, by rwa [after_concat], fun ds b h => ?_, hbefore, fun ds hds => ?_⟩
  · exact absurd (List.prefix_nil.mp h)
      (List.append_ne_nil_of_right_ne_nil ds (List.cons_ne_nil b []))
  · obtain rfl := List.prefix_nil.mp hds
    rwa [after_concat]

/-- A drain that goes on with one more action, which does not take the shard out of service
again. -/
theorem DrainedSince.concat (hsince : p.DrainedSince as i) {a : Action}
    (hretired : ¬(p.after as).Retired ((p.after as).act a) i)
    (hgoesOn : ∀ d, (p.after as).drainedBy i d = true →
      ((p.after as).act a).drainedBy i d = true) : p.DrainedSince (as ++ [a]) i := by
  obtain ⟨bs, b, cs, d, rfl, hfirst, hlast, hbefore, hdrains⟩ := hsince
  have hact : p.after (bs ++ b :: (cs ++ [a])) = (p.after (bs ++ b :: cs)).act a := by
    rw [← after_concat, List.append_assoc, List.cons_append]
  refine ⟨bs, b, cs ++ [a], d, by simp, hfirst, fun ds c h => ?_, hbefore, fun ds h => ?_⟩
  · obtain h | h := List.prefix_concat_iff.mp h
    · obtain ⟨rfl, hc⟩ := List.append_inj' h rfl
      obtain rfl := List.singleton_inj.mp hc
      rwa [hact]
    · exact hlast ds c h
  · obtain rfl | h := List.prefix_concat_iff.mp h
    · rw [hact]
      exact hgoesOn d (hdrains cs List.prefix_rfl)
    · exact hdrains ds h

/-- A shard that had nothing idle is in service, or has nothing idle, or is being drained. -/
theorem idle_or_drainedSince (hwf : p.WellFormed) (hfresh : (p.shard i).idle = [])
    (as : List Action) : ((p.after as).shard i).acceptsIdle = true ∨
      ((p.after as).shard i).idle = [] ∨ p.DrainedSince as i := by
  induction as using List.reverseRecOn with
  | nil => exact .inr (.inl hfresh)
  | append_singleton as a ih =>
    have hwf' := hwf.after as
    rw [after_concat]
    by_cases hidle : (((p.after as).act a).shard i).idle = []
    · exact .inr (.inl hidle)
    obtain ⟨d, hdrained, hothers⟩ := exists_drainer hwf' a i
    by_cases hretired : (p.after as).Retired ((p.after as).act a) i
    · obtain ⟨hbefore, hafter⟩ := (hdrained.retired hretired).resolve_left hidle
      exact .inr (.inr (.begin hretired hbefore hafter))
    obtain haccepts | hold | hsince := ih
    · exact .inl (acceptsIdle_of_not_retired haccepts hretired)
    · by_cases haccepts : ((p.after as).shard i).acceptsIdle = true
      · exact .inl (acceptsIdle_of_not_retired haccepts hretired)
      · exact absurd (idle_act (Bool.not_eq_true _ ▸ haccepts) hold a) hidle
    · refine .inr (.inr (hsince.concat hretired fun d' hd' => ?_))
      by_cases hdd : d' = d
      · subst hdd
        exact (hdrained.goesOn hd').resolve_left hidle
      · exact hothers d' hdd hd'

/-- An unhealthy verdict that is done and has changed the flag leaves nothing idle. -/
theorem idle_of_resumeVerdict {v : Verdict} {reply : Reply} (hv : v.demotes i = true)
    (hdone : (p.resumeVerdict v reply).2 = .done true) :
    ((p.resumeVerdict v reply).1.shard i).idle = [] := by
  cases v with
  | deciding j healthy =>
    obtain ⟨rfl, rfl⟩ : j = i ∧ healthy = false := by simpa [Verdict.demotes] using hv
    obtain hfalse | hidle | ⟨c, hwaits⟩ := demote_cases p j
    · cases hfalse.symm.trans hdone
    · exact hidle
    · cases hwaits.symm.trans hdone
  | draining j c n =>
    obtain rfl : j = i := by simpa [Verdict.demotes] using hv
    obtain hidle | ⟨d, hwaits⟩ := drain_cases (p.noteIdleClose j reply) j (n + 1)
    · exact hidle
    · cases hwaits.symm.trans hdone

/-- A caller that is told that its unhealthy verdict has changed the flag finds nothing idle. -/
theorem idle_of_serves (hwf : p.WellFormed)
    (hserves : p.Serves (.mark i false) as (.changed true)) : ((p.after as).shard i).idle = [] := by
  have htakes := takes_mark hwf i false
  have hi : i < p.shards.length := by
    refine Nat.lt_of_not_le fun hout => ?_
    have hstart := htakes.outside hout
    obtain ⟨-, hanswer⟩ | ⟨id, bs, reply, hwaits, -⟩ := hserves
    · rw [answer?, hstart] at hanswer
      cases hanswer
    · rw [hstart] at hwaits
      cases hwaits
  obtain ⟨q, id, hstart, -, hasked, -⟩ := htakes.inside hi
  obtain ⟨-, hanswer⟩ | ⟨id', bs, reply, hwaits, rfl, hanswer⟩ := hserves
  · rw [answer?, hstart] at hanswer
    cases hanswer
  have hq : p.act (.start (.mark i false)) = q := congrArg Prod.fst hstart
  rw [hstart] at hwaits
  obtain rfl := Progress.waits.inj hwaits
  have hwfq : q.WellFormed := hq ▸ hwf.act _
  rw [hq] at hanswer
  obtain ⟨t, ht, hdone⟩ := answer?_resume_eq_some_iff.mp hanswer
  have hlast : p.after (.start (.mark i false) :: (bs ++ [.resume id reply])) =
      ((q.after bs).resume id reply).1 := by
    rw [after, hq, after_concat]
    rfl
  have hverdict : ∃ v, t = .verdict v ∧ v.demotes i = true := by
    obtain ⟨rfl, -⟩ | ⟨c, n, rfl, -⟩ := verdict_after hwfq hasked ht
    · exact ⟨_, rfl, by simp [Verdict.demotes]⟩
    · exact ⟨_, rfl, by simp [Verdict.demotes]⟩
  obtain ⟨v, rfl, hv⟩ := hverdict
  obtain ⟨flipped, hresume, hflipped⟩ := Progress.map_eq_done.mp hdone
  obtain rfl := Answer.changed.inj hflipped
  rw [hlast, shard, shards_resume ht reply]
  exact idle_of_resumeVerdict hv hresume

/-- Nothing idles in a shard that is unavailable or closed unless the shard is being drained, by
someone who began to with the latest change of its flags to this. When an unhealthy verdict is
answered that it changed the flag, nothing idles there; and the health checker's are no
exception. -/
theorem nothing_idles_out_of_service {config : Config} {addresses : List String} {now : Duration}
    (hcreate : create config addresses now = .ok p) (as : List Action) (i : Nat) :
    (((p.after as).shard i).available = false ∨ ((p.after as).shard i).closed = true →
      ((p.after as).shard i).idle ≠ [] → p.DrainedSince as i) ∧
    (∀ bs, (p.after as).Serves (.mark i false) bs (.changed true) →
      (((p.after as).after bs).shard i).idle = []) ∧
    ∀ v reply, v.demotes i = true → ((p.after as).resumeVerdict v reply).2 = .done true →
      (((p.after as).resumeVerdict v reply).1.shard i).idle = [] := by
  have hwf := WellFormed.of_create hcreate
  have hfresh : (p.shard i).idle = [] := by
    by_cases hi : i < addresses.length
    · rw [shard_of_create hcreate hi]
    · rw [shard_of_length_le (length_shards_of_create hcreate ▸ Nat.le_of_not_lt hi)]
      rfl
  refine ⟨fun hout hidle => ?_, fun bs => idle_of_serves (hwf.after as),
    fun v reply => idle_of_resumeVerdict⟩
  refine ((idle_or_drainedSince hwf hfresh as).resolve_left fun haccepts => ?_).resolve_left hidle
  simp only [Shard.acceptsIdle, Bool.and_eq_true, Bool.not_eq_true'] at haccepts
  obtain h | h := hout
  · rw [haccepts.1] at h
    cases h
  · rw [haccepts.2] at h
    cases h

/-- A demotion waits for the first of two idle connections to be closed, and the other one idles
until then. -/
theorem nothing_idles_out_of_service_two :
    ∃ p as, create {} ["a:1"] .zero = .ok p ∧ ((p.after as).shard 0).idle = [1] ∧
      ((p.after as).shard 0).available = false ∧ p.DrainedSince as 0 := by
  have hcreate : create {} ["a:1"] .zero = .ok _ := rfl
  let as : List Action := [.start .get, .resume 0 (.ok ()), .start .get, .resume 1 (.ok ()),
    .start (.put 0 false), .start (.put 1 false), .start (.mark 0 false), .resume 2 (.ok ())]
  refine ⟨_, as, hcreate, by decide, by decide, ?_⟩
  exact (nothing_idles_out_of_service hcreate as 0).1 (.inl (by decide)) (by decide)

end Run

end Pool

end QuorumPool
