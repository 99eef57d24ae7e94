import QuorumPool.Proofs.Move

namespace QuorumPool.Pool

section Quiet

variable {p q r : Pool}

theorem Quiet.refl : p.Quiet p :=
  ⟨⟨rfl, rfl, rfl, rfl, rfl, fun _ => rfl⟩, rfl, rfl, rfl, fun _ hi => .inl hi⟩

theorem Alike.trans (hpq : p.Alike q) (hqr : q.Alike r) : p.Alike r where
  config := hqr.config.trans hpq.config
  shards := hqr.shards.trans hpq.shards
  conns := hqr.conns.trans hpq.conns
  numAvailable := hqr.numAvailable.trans hpq.numAvailable
  now := hqr.now.trans hpq.now
  closeCalls c := (hqr.closeCalls c).trans (hpq.closeCalls c)

theorem Quiet.trans (hpq : p.Quiet q) (hqr : q.Quiet r) : p.Quiet r where
  toAlike := hpq.toAlike.trans hqr.toAlike
  tasks := hqr.tasks.trans hpq.tasks
  nextTask := hqr.nextTask.trans hpq.nextTask
  checker := hqr.checker.trans hpq.checker
  suspects i hi := by
    obtain hi | hi := hqr.suspects i hi
    · exact hpq.suspects i hi
    · exact .inr (by rwa [hpq.shards] at hi)

theorem quiet_note (p : Pool) (e : Event) : p.Quiet (p.note e) :=
  ⟨⟨rfl, rfl, rfl, rfl, rfl, fun c => by simp [closeCalls, note]⟩, rfl, rfl, rfl,
    fun _ hi => .inl hi⟩

theorem quiet_rotate (p : Pool) : p.Quiet p.rotate :=
  ⟨⟨rfl, rfl, rfl, rfl, rfl, fun _ => rfl⟩, rfl, rfl, rfl, fun _ hi => .inl hi⟩

theorem quiet_passOver (p : Pool) (i attempt : Nat) (e : PoolError) :
    p.Quiet (p.passOver i attempt e) :=
  (quiet_rotate p).trans (quiet_note _ _)

theorem quiet_noteIdleClose (p : Pool) (i : Nat) (reply : Reply) :
    p.Quiet (p.noteIdleClose i reply) := by
  cases reply with
  | ok _ => exact Quiet.refl
  | error e => exact quiet_note p _

theorem quiet_offerSuspect (p : Pool) {i : Nat} (hi : i < p.shards.length) :
    p.Quiet (p.offerSuspect i) := by
  unfold offerSuspect
  split
  · exact Quiet.refl
  split
  · refine Quiet.trans (q := { p with suspects := p.suspects ++ [i] }) ?_ (quiet_note _ _)
    refine ⟨⟨rfl, rfl, rfl, rfl, rfl, fun _ => rfl⟩, rfl, rfl, rfl, fun j hj => ?_⟩
    obtain hj | hj := List.mem_append.mp hj
    · exact .inl hj
    · exact .inr (List.mem_singleton.mp hj ▸ hi)
  · exact quiet_note p _

end Quiet

section Bookkeeping

theorem bookkeeping_fails (g : Nat → Nat) : Bookkeeping fun s => { s with fails := g s.fails } := by
  constructor <;> intro _ <;> rfl

theorem bookkeeping_count {g : Tally → Tally} (hdials : ∀ t, (g t).dials = t.dials)
    (herrors : ∀ t, (g t).dialErrors = t.dialErrors) (hcloses : ∀ t, (g t).closes = t.closes) :
    Bookkeeping fun s => s.count g where
  address _ := rfl
  idle _ := rfl
  active _ := rfl
  available _ := rfl
  closed _ := rfl
  dials s := hdials s.tally
  dialErrors s := herrors s.tally
  closes s := hcloses s.tally

theorem bookkeeping_countGet : Bookkeeping fun s => s.count Tally.countGet :=
  bookkeeping_count (fun _ => rfl) (fun _ => rfl) (fun _ => rfl)

theorem bookkeeping_countEviction : Bookkeeping fun s => s.count Tally.countEviction :=
  bookkeeping_count (fun _ => rfl) (fun _ => rfl) (fun _ => rfl)

theorem bookkeeping_countPut (broken : Bool) :
    Bookkeeping fun s => s.count (·.countPut broken) :=
  bookkeeping_count (fun _ => rfl) (fun _ => rfl) (fun _ => rfl)

end Bookkeeping

namespace Moves

variable {p q : Pool} {h : Hand}

theorem quiet (hquiet : p.Quiet q) : Moves p h q h := single (.quiet hquiet)

theorem note (e : Event) : Moves p h (p.note e) h := quiet (quiet_note p e)

theorem recordOutcome {i : Nat} (hi : i < p.shards.length) (failed : Bool) :
    Moves p h (p.recordOutcome i failed) h := by
  unfold Pool.recordOutcome
  cases failed with
  | false => exact single (.score (bookkeeping_fails fun _ => 0))
  | true =>
    have hscore : Moves p h (p.modifyShard i fun s => { s with fails := s.fails + 1 }) h :=
      single (.score (bookkeeping_fails (· + 1)))
    simp only [if_true]
    split
    · exact hscore.tail (.quiet (quiet_offerSuspect _ (by simpa using hi)))
    · exact hscore

/-- What no small change touches, no number of them touches. -/
theorem same {α : Type} {f : Pool → α} {k : Hand}
    (hf : ∀ {p h q k}, Move (p, h) (q, k) → f q = f p) (hmoves : Moves p h q k) : f q = f p :=
  hmoves.keeps (I := fun r _ => f r = f p) (fun _ _ _ _ hmove hp => (hf hmove).trans hp) rfl

theorem length_shards {k : Hand} (hmoves : Moves p h q k) :
    q.shards.length = p.shards.length := by
  refine hmoves.same (f := fun r => r.shards.length) fun hmove => ?_
  cases hmove with
  | quiet hquiet => rw [hquiet.shards]
  | adopt | unlend => rfl
  | _ => simp

theorem config_eq {k : Hand} (hmoves : Moves p h q k) : q.config = p.config := by
  refine hmoves.same fun hmove => ?_
  cases hmove with
  | quiet hquiet => exact hquiet.config
  | _ => rfl

theorem tasks_eq {k : Hand} (hmoves : Moves p h q k) : q.tasks = p.tasks := by
  refine hmoves.same fun hmove => ?_
  cases hmove with
  | quiet hquiet => exact hquiet.tasks
  | _ => rfl

theorem nextTask_eq {k : Hand} (hmoves : Moves p h q k) : q.nextTask = p.nextTask := by
  refine hmoves.same fun hmove => ?_
  cases hmove with
  | quiet hquiet => exact hquiet.nextTask
  | _ => rfl

theorem checker_eq {k : Hand} (hmoves : Moves p h q k) : q.checker = p.checker := by
  refine hmoves.same fun hmove => ?_
  cases hmove with
  | quiet hquiet => exact hquiet.checker
  | _ => rfl

end Moves

/-- An activity leads from what it has in hand to its next wait or its result, by small changes. -/
structure Leads {σ α : Type} (p : Pool) (h : Hand) (f : σ → Hand) (r : Pool × Progress σ α) :
    Prop where
  moves : Moves p h r.1 (r.2.hand f)
  parks : (r.2.hand f).Parks p.config

namespace Leads

variable {σ α τ β : Type} {p q : Pool} {h k : Hand} {f : σ → Hand}

theorem done {a : α} (hmoves : Moves p h q .free) : Leads p h f (q, .done a) := ⟨hmoves, trivial⟩

/-- A step that changes nothing in the pool and takes nothing in hand. -/
theorem still {w : Progress σ α} (hw : w.hand f = .free) : Leads p .free f (p, w) :=
  ⟨by rw [hw]; exact .refl, by rw [hw]; trivial⟩

theorem after_moves {r : Pool × Progress σ α} (hmoves : Moves p h q k) (hleads : Leads q k f r) :
    Leads p h f r :=
  ⟨hmoves.trans hleads.moves, hmoves.config_eq ▸ hleads.parks⟩

theorem map {r : Pool × Progress σ α} {f' : τ → Hand} {g : σ → τ} {a : α → β}
    (hleads : Leads p h f r) (hf : ∀ s, f' (g s) = f s) :
    Leads p h f' (r.map id (·.map g a)) := by
  obtain ⟨hmoves, hparks⟩ := hleads
  constructor <;> simpa only [Prod.map, id, Progress.hand_map hf]

end Leads

section Get

variable {p : Pool} {i : Nat}

theorem leads_discard {c : ConnId} :
    Leads p (.popped i c) (Borrowing.hand i) (p.discard i c) :=
  ⟨.single .discard, trivial⟩

theorem leads_serve (hi : i < p.shards.length) : Leads p .free (Borrowing.hand i) (p.serve i) := by
  unfold serve
  dsimp only
  split
  · rename_i c rest hidle
    have hpop : Moves p .free (p.dropIdle i) (.popped i c) := .single (.pop hidle)
    split
    · have hevict : Moves p .free
          (((p.dropIdle i).note (.staleEvicted (p.shard i).address)).count i Tally.countEviction)
          (.popped i c) :=
        (hpop.trans (.note _)).tail (.score bookkeeping_countEviction)
      exact leads_discard.after_moves hevict
    split
    · exact ⟨hpop, ‹_›⟩
    · exact .done (hpop.tail (.lend (by simpa using hi)))
  · rename_i hidle
    split
    · exact ⟨.single (.dial hi hidle ‹_›), trivial⟩
    · exact .done .refl

theorem leads_borrow (hi : i < p.shards.length) :
    Leads p .free (Borrowing.hand i) (p.borrow i) := by
  unfold borrow
  split
  · exact .done .refl
  · exact (leads_serve (by simpa using hi)).after_moves
      (.single (.score bookkeeping_countGet))

theorem moves_adopt (hi : i < p.shards.length) : Moves p (.slot i) (p.adopt i) .free := by
  have hrecord : Moves p (.slot i) (p.recordOutcome i false) (.slot i) := .recordOutcome hi false
  exact (hrecord.tail (.adopt (hrecord.length_shards ▸ hi))).trans (.note _)

theorem moves_failDial (hi : i < p.shards.length) (e : PoolError) :
    Moves p (.slot i) (p.failDial i e) .free := by
  have hrecord : Moves p (.slot i) (p.recordOutcome i true) (.slot i) := .recordOutcome hi true
  exact (hrecord.tail (.failDial (hrecord.length_shards ▸ hi))).trans (.note _)

theorem leads_resumeBorrow (hi : i < p.shards.length) (b : Borrowing) (reply : Reply) :
    Leads p (b.hand i).parked (Borrowing.hand i) (p.resumeBorrow i b reply) := by
  cases b with
  | discarding c =>
    have hquiet := quiet_noteIdleClose p i reply
    exact (leads_serve (by rwa [hquiet.shards])).after_moves (.quiet hquiet)
  | validating c =>
    cases reply with
    | ok _ => exact .done (.single (.lend hi))
    | error e => exact leads_discard.after_moves (.note _)
  | dialing =>
    cases reply with
    | ok _ => exact .done (moves_adopt hi)
    | error e => exact .done (moves_failDial hi e)

theorem leads_visit {start attempt left : Nat} (hpos : 0 < p.shards.length) :
    Leads p .free (Getting.hand p.shards.length) (p.visit start attempt left) := by
  induction left generalizing p attempt with
  | zero => exact .done .refl
  | succ left ih =>
    have hi : p.visited start attempt < p.shards.length := Nat.mod_lt _ hpos
    unfold visit
    dsimp only
    split
    · obtain ⟨hmoves, hparks⟩ := leads_borrow hi
      split
      · rename_i heq
        rw [heq] at hmoves hparks
        exact ⟨hmoves, hparks⟩
      · rename_i heq
        rw [heq] at hmoves
        exact .done hmoves
      · rename_i q e heq
        rw [heq] at hmoves
        have hon := hmoves.tail (.quiet (quiet_passOver q (p.visited start attempt) attempt e))
        have hlen := hon.length_shards
        exact (hlen ▸ ih (hlen ▸ hpos)).after_moves hon
    · exact (ih (p := p.rotate) hpos).after_moves (.quiet (quiet_rotate p))

theorem leads_get (hpos : 0 < p.shards.length) :
    Leads p .free (Getting.hand p.shards.length) p.get := by
  unfold get
  split
  · exact .done .refl
  · exact (leads_visit (p := p.rotate) hpos).after_moves (.quiet (quiet_rotate p))

theorem leads_resumeGet (hpos : 0 < p.shards.length) (g : Getting) (reply : Reply) :
    Leads p (g.hand p.shards.length).parked (Getting.hand p.shards.length)
      (p.resumeGet g reply) := by
  have hi : p.visited g.start g.attempt < p.shards.length := Nat.mod_lt _ hpos
  obtain ⟨hmoves, hparks⟩ := leads_resumeBorrow hi g.borrowing reply
  unfold resumeGet
  dsimp only
  split
  · rename_i heq
    rw [heq] at hmoves hparks
    exact ⟨hmoves, hparks⟩
  · rename_i heq
    rw [heq] at hmoves
    exact .done hmoves
  · rename_i q e heq
    rw [heq] at hmoves
    have hon := hmoves.tail
      (.quiet (quiet_passOver q (p.visited g.start g.attempt) g.attempt e))
    have hlen := hon.length_shards
    exact (hlen ▸ leads_visit (hlen ▸ hpos)).after_moves hon

end Get

section Put

variable {p : Pool}

/-- Taking back a loan gives the connection and its slot back, in this order. -/
theorem moves_reclaim {c : ConnId} {conn : Conn} (hconn : p.conns[c]? = some conn)
    (hborrowed : conn.borrowed = true) (hi : conn.shard < p.shards.length) (broken : Bool) :
    Moves p .free (p.reclaim conn.shard c broken) (.returned conn.shard c) := by
  have hunlend := Moves.single (.unlend hconn hborrowed)
  have hrecord := hunlend.trans (.recordOutcome (p := p.modifyConn c _) hi broken)
  have hcount := hrecord.tail (.score (i := conn.shard) (bookkeeping_countPut broken))
  exact hcount.tail (.release (hcount.length_shards ▸ hi))

theorem leads_put (hi : ∀ conn ∈ p.conns, conn.shard < p.shards.length) (c : ConnId)
    (broken : Bool) : Leads p .free (fun _ => .closing c) (p.put c broken) := by
  unfold put
  split
  · rename_i i lastUsed hconn
    have hrange : i < p.shards.length := hi _ (List.mem_of_getElem? hconn)
    have hreclaim : Moves p .free (p.reclaim i c broken) (.returned i c) :=
      moves_reclaim hconn rfl hrange broken
    dsimp only
    split
    · exact ⟨hreclaim.tail .refuse, trivial⟩
    · rename_i haccepts
      simp only [Bool.or_eq_true, not_or, Bool.not_eq_true, Bool.not_eq_false'] at haccepts
      split
      · exact .done (hreclaim.tail
          (.enqueue (hreclaim.length_shards ▸ hrange) haccepts.2 ‹_›))
      · have hnote := hreclaim.trans
          (.note (.idleQueueFull ((p.reclaim i c broken).shard i).address))
        have hevict := hnote.tail (.score (i := i) bookkeeping_countEviction)
        exact ⟨hevict.tail .refuse, trivial⟩
  · exact .done .refl

end Put

section Verdict

variable {p : Pool} {i : Nat}

theorem leads_drain (drained : Nat) : Leads p .free Verdict.hand (p.drain i drained) := by
  unfold drain
  dsimp only
  split
  · rename_i c rest hidle
    have hpop : Moves p .free (p.dropIdle i) (.popped i c) := .single (.pop hidle)
    exact ⟨hpop.tail .discard, trivial⟩
  · exact .done (.note _)

theorem leads_promote (hi : i < p.shards.length) : Leads p .free Verdict.hand (p.promote i) := by
  unfold promote
  split
  · exact .done .refl
  · rename_i havailable
    have hpromote := Moves.single (.promote hi (Bool.not_eq_true _ ▸ havailable))
    exact .done (hpromote.trans (.note _))

theorem leads_demote (hi : i < p.shards.length) : Leads p .free Verdict.hand (p.demote i) := by
  unfold demote
  dsimp only
  split
  · exact .done .refl
  rename_i havailable
  split
  · exact .done (.note _)
  rename_i hpermits
  simp only [Bool.not_eq_true, Bool.not_eq_false'] at havailable hpermits
  have hdemote := Moves.single (.demote hi havailable hpermits)
  exact (leads_drain 0).after_moves (hdemote.trans (.note _))

theorem leads_resumeVerdict {v : Verdict} (hi : v.shard < p.shards.length) (reply : Reply) :
    Leads p v.hand.parked Verdict.hand (p.resumeVerdict v reply) := by
  cases v with
  | deciding i healthy =>
    cases healthy with
    | true => exact leads_promote hi
    | false => exact leads_demote hi
  | draining i c drained =>
    exact (leads_drain (drained + 1)).after_moves (.quiet (quiet_noteIdleClose p i reply))

/-- A check writes down how it goes, and leaves the pool alone. -/
theorem exists_resumeCheck_eq (p : Pool) (c : Check) (reply : Reply) :
    ∃ journal, (p.resumeCheck c reply).1 = { p with journal } := by
  unfold resumeCheck
  split
  · exact ⟨_, rfl⟩
  · exact ⟨_, rfl⟩
  · exact ⟨_, rfl⟩
  · exact ⟨_, rfl⟩
  · dsimp only
    split <;> split <;> exact ⟨_, rfl⟩

theorem leads_resumeCheck (c : Check) (reply : Reply) :
    Leads p .free (fun _ => .free) (p.resumeCheck c reply) := by
  have hands (w : Progress Check Bool) : w.hand (fun _ => Hand.free) = .free := by
    cases w <;> rfl
  refine ⟨?_, by rw [hands]; trivial⟩
  rw [hands]
  unfold resumeCheck
  split
  · exact .refl
  · exact .note _
  · exact .refl
  · exact .refl
  · dsimp only
    split <;> split
    · exact .refl
    · exact (Moves.note _).trans .refl
    · exact .note _
    · exact (Moves.note _).trans (.note _)

theorem leads_resumeInspection {s : Inspection} (hi : s.shard < p.shards.length)
    (reply : Reply) :
    Leads p s.hand.parked Inspection.hand (p.resumeInspection s reply) := by
  cases s with
  | checking i c =>
    obtain ⟨hmoves, _⟩ := leads_resumeCheck (p := p) c reply
    unfold resumeInspection
    dsimp only
    split
    · rename_i heq
      rw [heq] at hmoves
      exact ⟨hmoves, trivial⟩
    · rename_i heq
      rw [heq] at hmoves
      exact ⟨hmoves, trivial⟩
  | judging v =>
    obtain ⟨hmoves, hparks⟩ := leads_resumeVerdict (v := v) hi reply
    unfold resumeInspection
    dsimp only
    split
    · rename_i heq
      rw [heq] at hmoves hparks
      exact ⟨hmoves, hparks⟩
    · rename_i heq
      rw [heq] at hmoves
      exact .done hmoves

end Verdict

section Shutdown

variable {p : Pool} {i : Nat}

theorem leads_closeLast (left : Nat) : Leads p .free Closing.hand (p.closeLast left) := by
  induction left generalizing p with
  | zero => exact .done (.note _)
  | succ left ih =>
    have hshut := Moves.single (Move.shut (p := p) (i := p.shards.length - (left + 1)))
    unfold closeLast
    dsimp only
    split
    · rename_i c rest hidle
      exact ⟨(hshut.tail (.pop hidle)).tail .discard, trivial⟩
    · exact ih.after_moves (hshut.trans (.note _))

theorem leads_closeOn (drained : Nat) : Leads p .free Closing.hand (p.closeOn i drained) := by
  unfold closeOn
  split
  · rename_i c rest hidle
    have hpop : Moves p .free (p.dropIdle i) (.popped i c) := .single (.pop hidle)
    exact ⟨hpop.tail .discard, trivial⟩
  · exact (leads_closeLast _).after_moves (.note _)

theorem leads_enterShutdown : Leads p .free Closing.hand p.enterShutdown := by
  unfold enterShutdown
  split
  · exact .done (.note _)
  · refine ⟨.quiet ⟨⟨rfl, rfl, rfl, rfl, rfl, fun _ => rfl⟩, rfl, rfl, rfl, ?_⟩, trivial⟩
    exact fun _ hi => .inl hi

theorem leads_shutdown : Leads p .free Closing.hand p.shutdown := by
  unfold shutdown
  split
  · exact ⟨.refl, trivial⟩
  · exact leads_enterShutdown

theorem leads_resumeShutdown (s : Closing) (reply : Reply) :
    Leads p s.hand.parked Closing.hand (p.resumeShutdown s reply) := by
  cases s with
  | queued =>
    by_cases hunder : p.shutdownUnderWay
    · simp only [resumeShutdown, hunder, if_true]
      exact ⟨.refl, trivial⟩
    · simp only [resumeShutdown, hunder, Bool.false_eq_true, if_false]
      exact leads_enterShutdown
  | joining =>
    by_cases hstopped : p.checker = .stopped
    · simp only [resumeShutdown, hstopped, if_true]
      exact leads_closeLast _
    · simp only [resumeShutdown, hstopped, if_false]
      exact ⟨.refl, trivial⟩
  | draining i c drained =>
    exact (leads_closeOn (drained + 1)).after_moves (.quiet (quiet_noteIdleClose p i reply))

end Shutdown

end QuorumPool.Pool
