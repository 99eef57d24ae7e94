import QuorumPool.Proofs.Drains
import QuorumPool.Proofs.Loans
import QuorumPool.Proofs.Totals

namespace QuorumPool

/-- Whether the call dials shard `i` for lending. -/
def Call.dials (i : Nat) : Call → Bool
  | dial j _ => j = i
  | probe _ | validate _ | close _ => false

/-- Whether the action returns a connection as broken. -/
def Action.breaks : Action → Bool
  | start (.put _ broken) => broken
  | _ => false

theorem Progress.asks_map {σ α τ β : Type} {f : σ → Option Call} {f' : τ → Option Call} {g : σ → τ}
    {a : α → β} (hf : ∀ s, f' (g s) = f s) (w : Progress σ α) : (w.map g a).asks f' = w.asks f := by
  cases w with
  | waits s => exact congrArg Option.toList (hf s)
  | done _ => rfl

namespace Pool

/-- What is asked of the factory with the action. -/
def asked (p : Pool) (a : Action) : List Call := (p.act a).calls.drop p.calls.length

/-- Whether the call closes a connection of shard `i`. -/
def closes (p : Pool) (i : Nat) : Call → Bool
  | .close (.own c) => p.home c = some i
  | _ => false

/-- Whether the call closes a connection that waits in the idle queue of shard `i` and is stale. -/
def closesStale (p : Pool) (i : Nat) : Call → Bool
  | .close (.own c) => (p.shard i).idle.contains c && p.isStale c
  | _ => false

/-- Whether a get takes a step with the action. -/
def stepsGet (p : Pool) : Action → Bool
  | .start .get => true
  | .resume id _ =>
    match p.task? id with
    | some (.get _) => true
    | _ => false
  | _ => false

/-- Whether a dial of shard `i` fails with the action. -/
def failsDial (p : Pool) (i : Nat) : Action → Bool
  | .resume id (.error _) => (p.call? id).any (·.dials i)
  | _ => false

/-- Whether a connection of shard `i` is returned with the action and taken back. -/
def returnsTo (p : Pool) (i : Nat) : Action → Bool
  | .start (.put c broken) => p.takesBack c broken && p.home c = some i
  | _ => false

/-- Whether shard `i` is in service, so that it would queue a sound connection, and has no room. -/
def isFull (p : Pool) (i : Nat) : Bool :=
  (p.shard i).acceptsIdle && p.config.maxIdle ≤ (p.shard i).idle.length

/-- How often the action brings what the counter of shard `i` counts. -/
def occurrences (i : Nat) (k : Counter) (p : Pool) (a : Action) : Nat :=
  match k with
  | .dials => (p.asked a).countP (·.dials i)
  | .dialErrors => (p.failsDial i a).toNat
  | .closes => (p.asked a).countP (p.closes i)
  | .puts => (p.returnsTo i a).toNat
  | .broken => (p.returnsTo i a && a.breaks).toNat
  | .evictions =>
    (if p.stepsGet a then (p.asked a).countP (p.closesStale i) else 0) +
      (p.returnsTo i a && !a.breaks && p.isFull i).toNat

/-- How often a run has brought what the counter of shard `i` counts. -/
def occurred (p : Pool) (as : List Action) (i : Nat) (k : Counter) : Nat :=
  (along (fun q a => [occurrences i k q a]) p as).sum

variable {p q : Pool} {a : Action} {i : Nat} {k : Counter} {c : ConnId} {cs : List Call}

section Asked

theorem calls_start (p : Pool) (request : Request) : (p.start request).1.calls =
    p.calls ++ (p.begin request).2.asks (·.call? (p.begin request).1) := by
  obtain ⟨l, hdoes, -⟩ := Does.exists_begin p request
  have hcalls := hdoes.calls
  unfold start
  rcases hbegin : p.begin request with ⟨q, t | a⟩ <;> rw [hbegin] at hcalls
  · refine (calls_askFor _ t).trans (congr (congrArg _ hcalls) ?_)
    cases t <;> rfl
  · exact hcalls.trans (List.append_nil _).symm

theorem calls_resume {id : TaskId} {t : Task} (ht : p.task? id = some t) (reply : Reply) :
    (p.resume id reply).1.calls =
      p.calls ++ (p.advance t reply).2.asks (·.call? (p.advance t reply).1) := by
  obtain ⟨l, hdoes, -⟩ := Does.exists_advance p t reply
  have hcalls := hdoes.calls
  simp only [resume, ht]
  rcases hadvance : p.advance t reply with ⟨q, t' | a⟩ <;> rw [hadvance] at hcalls
  · refine (calls_askFor _ t').trans (congr (congrArg _ hcalls) ?_)
    cases t' <;> rfl
  · exact hcalls.trans (List.append_nil _).symm

theorem calls_errand (p : Pool) (due : Duration) (e : Errand) (reply : Reply) :
    ((p.resumeErrand e reply).1.setErrand due (p.resumeErrand e reply).2).calls =
      p.calls ++ (p.resumeErrand e reply).2.asks (·.inspection.call?) := by
  rw [calls_setErrand, (Does.resumeErrand p e reply).calls]

theorem asked_of_calls (hcalls : (p.act a).calls = p.calls ++ cs) : p.asked a = cs := by
  rw [asked, hcalls, List.drop_left]

end Asked

section Heard

/-- How often the calls bear on the counter, when none of them is a get's. -/
def heard (p : Pool) (i : Nat) (cs : List Call) : Counter → Nat
  | .dials => cs.countP (·.dials i)
  | .closes => cs.countP (p.closes i)
  | .puts | .broken | .dialErrors | .evictions => 0

theorem heard_nil : p.heard i [] k = 0 := by cases k <;> rfl

/-- The close of a connection bears on the shard that the connection is of. -/
theorem heard_close {j : Nat} (hc : p.home c = some j) :
    [Change.counts j .closes].count (.counts i k) = p.heard i [.close (.own c)] k := by
  cases k <;> simp [heard, Call.dials, closes, hc, List.count_singleton, List.countP_singleton]

theorem heard_of_probes (hcs : ∀ call ∈ cs, ∃ address, call = .probe address) :
    p.heard i cs k = 0 := by
  cases k <;> try rfl
  all_goals
    refine List.countP_eq_zero.mpr fun call hcall => ?_
    obtain ⟨address, rfl⟩ := hcs call hcall
    simp [Call.dials, closes]

theorem heard_check (c : Check) : p.heard i [c.call] k = 0 := by
  obtain ⟨address, attempt, checking⟩ := c
  cases k <;> cases checking <;> rfl

/-- An action that is no step of a get, no return and no failed dial. -/
theorem occurrences_eq_heard (hget : p.stepsGet a = false) (hfails : p.failsDial i a = false)
    (hreturns : p.returnsTo i a = false) : occurrences i k p a = p.heard i (p.asked a) k := by
  cases k <;> simp [occurrences, heard, hget, hfails, hreturns]

theorem heard_congr (hconns : q.conns = p.conns) : q.heard i cs k = p.heard i cs k := by
  have hcloses : q.closes i = p.closes i := by
    funext call
    unfold closes home
    rw [hconns]
  cases k <;> simp only [heard, hcloses]

theorem heard_drain (hp : p.Shelved) (j n : Nat) :
    ((p.drain j n).2.changes Verdict.changes).count (.counts i k) =
      p.heard i ((p.drain j n).2.asks Verdict.call?) k := by
  unfold drain
  dsimp only
  split
  · rename_i c rest hqueue
    exact heard_close (hp j c (hqueue ▸ List.mem_cons_self)).1
  · exact heard_nil.symm

theorem heard_demote (hp : p.Shelved) (j : Nat) :
    ((p.demote j).2.changes Verdict.changes).count (.counts i k) =
      p.heard i ((p.demote j).2.asks Verdict.call?) k := by
  unfold demote
  dsimp only
  split
  · exact heard_nil.symm
  split
  · exact heard_nil.symm
  · have hout : ∀ e n, Shelved (({ p with numAvailable := n }.modifyShard j
        fun s => { s with available := false }).note e) := by
      intro e n l c hc
      have hqueue : (({ p with numAvailable := n }.modifyShard j
          fun s => { s with available := false }).shard l).idle = (p.shard l).idle :=
        idle_modifyShard (p := { p with numAvailable := n })
          (f := fun s => { s with available := false }) (fun _ => rfl) l
      exact hp l c (hqueue ▸ hc)
    exact (heard_drain (hout _ _) j 0).trans (heard_congr rfl)

private theorem count_decision (v : Verdict) : (p.decision v).count (.counts i k) = 0 :=
  List.count_eq_zero.mpr fun hmem => by obtain h | h := eq_of_mem_decision hmem <;> cases h

theorem heard_resumeVerdict (hp : p.Shelved) (v : Verdict) (reply : Reply) :
    (p.decision v ++ (p.resumeVerdict v reply).2.changes Verdict.changes).count (.counts i k) =
      p.heard i ((p.resumeVerdict v reply).2.asks Verdict.call?) k := by
  rw [List.count_append, count_decision, Nat.zero_add]
  cases v with
  | deciding j healthy =>
    cases healthy with
    | true =>
      change ((p.promote j).2.changes _).count _ = p.heard i ((p.promote j).2.asks _) k
      unfold promote
      split <;> exact heard_nil.symm
    | false => exact heard_demote hp j
  | draining j c n =>
    have hnote : p.Twin (p.noteIdleClose j reply) := .noteIdleClose j reply
    exact (heard_drain (hnote.peer.shelved hp) j (n + 1)).trans (heard_congr hnote.conns)

theorem heard_resumeInspection (hp : p.Shelved) (s : Inspection) (reply : Reply) :
    (p.judgement s ++ (p.resumeInspection s reply).2.changes Inspection.changes).count
        (.counts i k) =
      p.heard i ((p.resumeInspection s reply).2.asks Inspection.call?) k := by
  cases s with
  | checking j c =>
    unfold resumeInspection
    dsimp only
    rcases p.resumeCheck c reply with ⟨q, c' | healthy⟩
    · exact (heard_check c').symm
    · exact heard_nil.symm
  | judging v =>
    have hverdict := heard_resumeVerdict (i := i) (k := k) hp v reply
    unfold resumeInspection
    dsimp only
    rcases hr : p.resumeVerdict v reply with ⟨q, v' | b⟩ <;> rw [hr] at hverdict <;> exact hverdict

theorem heard_sweepFrom (j : Nat) :
    p.heard i ((q.sweepFrom j).asks (·.inspection.call?)) k = 0 := by
  refine heard_of_probes fun call hcall => ?_
  unfold sweepFrom at hcall
  split at hcall
  · exact asks_inspect _ _ (Option.mem_toList.mp hcall)
  · cases hcall

/-- An errand asks for what its inspection asks for, and for no close when it turns to a shard. -/
theorem heard_resumeErrand (e : Errand) (reply : Reply) :
    p.heard i ((p.resumeErrand e reply).2.asks (·.inspection.call?)) k =
      p.heard i ((p.resumeInspection e.inspection reply).2.asks Inspection.call?) k := by
  unfold resumeErrand
  rcases p.resumeInspection e.inspection reply with ⟨q, s | _⟩
  · cases e <;> rfl
  · cases e with
    | recheck s => rfl
    | sweep s => exact (heard_sweepFrom _).trans heard_nil.symm

theorem heard_closeLast (hp : p.Shelved) (left : Nat) :
    ((p.closeLast left).2.changes Closing.changes).count (.counts i k) =
      p.heard i ((p.closeLast left).2.asks fun s => (Task.shutdown s).call? q) k := by
  induction left generalizing p with
  | zero => exact heard_nil.symm
  | succ left ih =>
    let j := p.shards.length - (left + 1)
    have hpeer : p.Peer (p.modifyShard j fun s => { s with closed := true }) :=
      .modifyShard (fun _ => rfl) fun _ => rfl
    have hshut := hpeer.shelved hp
    unfold closeLast
    dsimp only
    split
    · rename_i c rest hqueue
      have hc := (hshut _ c (hqueue ▸ List.mem_cons_self)).1
      exact heard_close hc
    · exact (ih ((Twin.note _).peer.shelved hshut)).trans (heard_congr rfl)

theorem heard_closeOn (hp : p.Shelved) (j n : Nat) :
    ((p.closeOn j n).2.changes Closing.changes).count (.counts i k) =
      p.heard i ((p.closeOn j n).2.asks fun s => (Task.shutdown s).call? q) k := by
  unfold closeOn
  split
  · rename_i c rest hqueue
    exact heard_close (hp j c (hqueue ▸ List.mem_cons_self)).1
  · exact (heard_closeLast ((Twin.note _).peer.shelved hp) _).trans (heard_congr rfl)

theorem heard_enterShutdown : (p.enterShutdown.2.changes Closing.changes).count (.counts i k) =
    p.heard i (p.enterShutdown.2.asks fun s => (Task.shutdown s).call? q) k := by
  unfold enterShutdown
  split <;> exact heard_nil.symm

theorem heard_shutdown : (p.shutdown.2.changes Closing.changes).count (.counts i k) =
    p.heard i (p.shutdown.2.asks fun s => (Task.shutdown s).call? q) k := by
  unfold shutdown
  split
  · exact heard_nil.symm
  · exact heard_enterShutdown

private theorem count_shuts (js : List Nat) : (js.map Change.shuts).count (.counts i k) = 0 :=
  List.count_eq_zero.mpr fun hmem => by obtain ⟨j, -, h⟩ := List.mem_map.mp hmem; cases h

theorem heard_resumeShutdown (hp : p.Shelved) (s : Closing) (reply : Reply) (js : List Nat) :
    (js.map Change.shuts ++ (p.resumeShutdown s reply).2.changes Closing.changes).count
        (.counts i k) =
      p.heard i ((p.resumeShutdown s reply).2.asks fun s => (Task.shutdown s).call? q) k := by
  rw [List.count_append, count_shuts, Nat.zero_add]
  cases s with
  | queued =>
    unfold resumeShutdown
    dsimp only
    split
    · exact heard_nil.symm
    · exact heard_enterShutdown
  | joining =>
    unfold resumeShutdown
    dsimp only
    split
    · exact heard_closeLast hp _
    · exact heard_nil.symm
  | draining j c n =>
    have hnote : p.Twin (p.noteIdleClose j reply) := .noteIdleClose j reply
    exact (heard_closeOn (hnote.peer.shelved hp) j (n + 1)).trans (heard_congr hnote.conns)

end Heard

section Get

/-- How often the calls of a get bear on the counter. It gives up no idle connection but a stale
one. -/
def heardOfGet (p : Pool) (i : Nat) (cs : List Call) : Counter → Nat
  | .evictions => cs.countP (p.closesStale i)
  | k => p.heard i cs k

/-- A connection that a get gives up is stale, and comes from the idle queue of the shard. -/
def GivesUp (p : Pool) (i : Nat) (b : Borrowing) : Prop :=
  ∀ c, b = .discarding c → c ∈ (p.shard i).idle ∧ p.isStale c = true

theorem GivesUp.of_eq {b : Borrowing} (hidle : (q.shard i).idle = (p.shard i).idle)
    (hconfig : q.config = p.config) (hconns : q.conns = p.conns) (hnow : q.now = p.now)
    (hq : q.GivesUp i b) : p.GivesUp i b := by
  intro c hc
  obtain ⟨hmem, hstale⟩ := hq c hc
  unfold isStale at hstale ⊢
  rw [hconfig, hconns, hnow] at hstale
  exact ⟨hidle ▸ hmem, hstale⟩

theorem Twin.givesUp (htwin : p.Twin q) {b : Borrowing} (hq : q.GivesUp i b) : p.GivesUp i b :=
  hq.of_eq (htwin.peer.idle i) htwin.config htwin.conns htwin.now

theorem givesUp_of_serve {b : Borrowing} (hserve : p.serve i = (q, .waits b)) : p.GivesUp i b := by
  rintro c rfl
  unfold serve at hserve
  dsimp only at hserve
  split at hserve
  · rename_i d rest hqueue
    split at hserve
    · rename_i hstale
      cases hserve
      exact ⟨hqueue ▸ List.mem_cons_self, hstale⟩
    split at hserve <;> cases hserve
  · split at hserve <;> cases hserve

theorem givesUp_of_borrow {b : Borrowing} (hborrow : p.borrow i = (q, .waits b)) :
    p.GivesUp i b := by
  unfold borrow at hborrow
  split at hborrow
  · cases hborrow
  · exact Twin.count.givesUp (givesUp_of_serve hborrow)

theorem givesUp_of_visits {start : Nat} {w : Pool × Progress Getting (Except PoolError ConnId)}
    (hvisits : p.Visits start w) {g : Getting} (hw : w.2 = .waits g) :
    p.GivesUp (p.visited g.start g.attempt) g.borrowing := by
  cases hvisits with
  | exhausted => cases hw
  | waits htwin _ hborrow =>
    cases hw
    exact htwin.givesUp (givesUp_of_borrow hborrow)
  | lends => cases hw

theorem givesUp_of_get {g : Getting} (hget : p.get.2 = .waits g) :
    p.GivesUp (p.visited g.start g.attempt) g.borrowing := by
  unfold get at hget
  split at hget
  · cases hget
  · exact givesUp_of_visits ((visits p.rotate _ _ _).after .rotate) hget

/-- A get that goes on gives up a stale connection, if it does not give up the one that it has
validated. -/
theorem givesUp_of_resumeGet {g g' : Getting} (hb : ∀ c, g.borrowing ≠ .validating c)
    (reply : Reply) (hresume : (p.resumeGet g reply).2 = .waits g') :
    p.GivesUp (p.visited g'.start g'.attempt) g'.borrowing := by
  obtain ⟨start, attempt, b⟩ := g
  have hdoes := Does.resumeBorrow p (p.visited start attempt) b reply
  unfold resumeGet at hresume
  dsimp only at hresume hb
  split at hresume <;> rename_i heq <;> rw [heq] at hdoes
  · cases hresume
    cases b with
    | discarding c => exact (Twin.noteIdleClose _ reply).givesUp (givesUp_of_serve heq)
    | validating c => exact absurd rfl (hb c)
    | dialing => cases reply <;> cases heq
  · cases hresume
  · rename_i r e
    have hpeer := resumeBorrow_eq_error heq
    have hvisits := (visits _ start (attempt + 1) (r.maxRetry - (attempt + 1))).after
      (Twin.passOver (p := r) (p.visited start attempt) attempt e)
    have hgives := givesUp_of_visits hvisits hresume
    rw [visited, hpeer.length, ← visited] at hgives
    exact hgives.of_eq (hpeer.idle _) hdoes.config hpeer.conns hdoes.now

private theorem heardOfGet_nil : p.heardOfGet i [] k = 0 := by cases k <;> rfl

/-- What a get comes to wait for is what it has counted. -/
theorem heardOfGet_getting (hp : p.Shelved) {g : Getting}
    (hg : p.GivesUp (p.visited g.start g.attempt) g.borrowing)
    (hlen : q.shards.length = p.shards.length) :
    (g.changes p.shards.length).count (.counts i k) =
      p.heardOfGet i ((Task.get g).call? q).toList k := by
  obtain ⟨start, attempt, b⟩ := g
  cases b with
  | discarding c =>
    obtain ⟨hc, hstale⟩ := hg c rfl
    have hhome := (hp _ c hc).1
    have hstaleAt : p.closesStale i (.close (.own c)) = decide (p.visited start attempt = i) := by
      rw [closesStale, hstale, Bool.and_true, Bool.eq_iff_iff, List.contains_iff_mem,
        decide_eq_true_eq]
      constructor
      · intro hi
        exact Option.some.inj (hhome.symm.trans (hp i c hi).1)
      · rintro rfl
        exact hc
    have hchanges : Getting.changes p.shards.length ⟨start, attempt, .discarding c⟩ =
        [.counts (p.visited start attempt) .evictions, .counts (p.visited start attempt) .closes] :=
      rfl
    rw [hchanges]
    cases k <;> simp [heardOfGet, heard, Task.call?, Call.dials, closes, hhome, hstaleAt,
      List.count_cons, List.countP_singleton]
  | validating c => cases k <;> rfl
  | dialing =>
    have hi : q.visited start attempt = p.visited start attempt := by rw [visited, hlen, visited]
    have hchanges : Getting.changes p.shards.length ⟨start, attempt, .dialing⟩ =
        [.counts (p.visited start attempt) .dials] := rfl
    rw [hchanges]
    cases k <;> simp [heardOfGet, heard, Task.call?, Call.dials, closes, closesStale, hi,
      List.count_singleton, List.countP_singleton]

theorem heardOfGet_progress (hp : p.Shelved)
    {w : Progress Getting (Except PoolError ConnId)}
    (hw : ∀ g, w = .waits g → p.GivesUp (p.visited g.start g.attempt) g.borrowing)
    (hlen : q.shards.length = p.shards.length) :
    (w.changes (Getting.changes p.shards.length)).count (.counts i k) =
      p.heardOfGet i (w.asks fun g => (Task.get g).call? q) k := by
  cases w with
  | waits g => exact heardOfGet_getting hp (hw g rfl) hlen
  | done _ => exact heardOfGet_nil.symm

/-- A connection that is being validated does not wait in an idle queue. -/
theorem Conserved.closesStale_eq_false (hp : p.Conserved .free p.held) {id : TaskId}
    {start attempt : Nat} (ht : (id, .get ⟨start, attempt, .validating c⟩) ∈ p.tasks) (i : Nat) :
    p.closesStale i (.close (.own c)) = false := by
  have hnot : c ∉ (p.shard i).idle := by
    intro hmem
    have hone := hp.presence c
    have hvalid : 0 < p.validations c :=
      List.countP_pos_iff.mpr ⟨_, ht, by simp [Task.validates]⟩
    have hqueued : 0 < p.queued c := by
      rw [queued, hp.idle i c hmem]
      exact List.count_pos_iff.mpr hmem
    rw [Pool.presence, sum_claims_held] at hone
    split at hone <;> omega
  simp [closesStale, hnot]

/-- A get that goes on counts the failure that it is told of, and what it then comes to wait for. -/
theorem count_resumeGet (hp : p.Conserved .free p.held) {id : TaskId} {g : Getting}
    (ht : (id, .get g) ∈ p.tasks) (hcall : p.call? id = (Task.get g).call? p) (reply : Reply) :
    (g.borrowing.resumed (p.visited g.start g.attempt) reply
        ((p.resumeGet g reply).2.changes (Getting.changes p.shards.length))).count (.counts i k) =
      p.heardOfGet i
          ((p.resumeGet g reply).2.asks fun g' => (Task.get g').call? (p.resumeGet g reply).1) k +
        if k = .dialErrors then (p.failsDial i (.resume id reply)).toNat else 0 := by
  have hgoesOn (hb : ∀ c, g.borrowing ≠ .validating c) :=
    heardOfGet_progress (i := i) (k := k) hp.shelved
      (fun g' hg' => givesUp_of_resumeGet hb reply hg') (Does.resumeGet p g reply).length
  obtain ⟨start, attempt, b⟩ := g
  cases b with
  | discarding c =>
    have hfails : p.failsDial i (.resume id reply) = false := by
      cases reply with
      | ok _ => rfl
      | error e => rw [failsDial, hcall]; rfl
    rw [← hgoesOn nofun, hfails]
    simp [Borrowing.resumed]
  | validating c =>
    cases reply with
    | ok _ => cases k <;> rfl
    | error e =>
      have hfails : p.failsDial i (.resume id (.error e)) = false := by rw [failsDial, hcall]; rfl
      have hhome := (hp.spared ht c rfl).1
      have hfresh := hp.closesStale_eq_false ht i
      change [Change.counts (p.visited start attempt) .closes].count (.counts i k) =
        p.heardOfGet i [.close (.own c)] k + _
      rw [heard_close hhome, hfails]
      cases k <;> simp [heardOfGet, heard, hfresh]
  | dialing =>
    cases reply with
    | ok _ => cases k <;> rfl
    | error e =>
      have hfails :
          p.failsDial i (.resume id (.error e)) = decide (p.visited start attempt = i) := by
        rw [failsDial, hcall]
        rfl
      rw [← hgoesOn nofun, hfails, Borrowing.resumed, List.count_cons]
      cases k <;> simp [Bool.toNat, Bool.cond_decide]

end Get

section Put

theorem idle_reclaim (i : Nat) (c : ConnId) (broken : Bool) (j : Nat) :
    ((p.reclaim i c broken).shard j).idle = (p.shard j).idle := by
  let q := p.modifyConn c fun conn => { conn with borrowed := false, lastUsed := p.now }
  have hcount : q.Twin ((q.recordOutcome i broken).count i (·.countPut broken)) :=
    (Twin.recordOutcome i broken).trans .count
  have hreclaim : q.Peer (p.reclaim i c broken) :=
    hcount.peer.trans (.modifyShard (fun _ => rfl) fun _ => rfl)
  exact hreclaim.idle j

/-- A connection that is taken back is closed if it is broken, or if its shard is out of service or
has no room for it. -/
theorem snd_put {j : Nat} {lastUsed : Duration} (hconn : p.conns[c]? = some ⟨j, true, lastUsed⟩)
    (broken : Bool) :
    (p.put c broken).2 =
      if broken || !(p.shard j).acceptsIdle || p.isFull j then .waits () else .done (.ok ()) := by
  have hconfig := (Does.reclaim p j c broken).config
  simp only [put, hconn, acceptsIdle_reclaim, idle_reclaim, hconfig]
  cases hrefused : broken || !(p.shard j).acceptsIdle with
  | true => rfl
  | false =>
    have haccepts : (p.shard j).acceptsIdle = true := by
      simpa using ((Bool.or_eq_false_iff ..).mp hrefused).2
    simp only [isFull, haccepts, Bool.true_and, Bool.false_or, Bool.false_eq_true, if_false,
      decide_eq_true_eq]
    by_cases hroom : (p.shard j).idle.length < p.config.maxIdle
    · rw [if_pos hroom, if_neg (Nat.not_le.mpr hroom)]
    · rw [if_neg hroom, if_pos (Nat.le_of_not_lt hroom)]

/-- What a return that is taken counts. -/
theorem occurrences_put {j : Nat} {lastUsed : Duration}
    (hconn : p.conns[c]? = some ⟨j, true, lastUsed⟩) (broken : Bool) :
    (returned j broken (p.shard j).acceptsIdle (p.put c broken).2).count (.counts i k) =
      occurrences i k p (.start (.put c broken)) := by
  have hhome : p.home c = some j := by rw [home, hconn, Option.map_some]
  have htakes : p.takesBack c broken = true :=
    (takesBack_of_lent (by rw [isLent, hconn]; rfl) broken).1
  have hasked : p.asked (.start (.put c broken)) =
      (p.put c broken).2.asks fun _ => some (.close (.own c)) := by
    refine asked_of_calls ((calls_start p _).trans (congrArg _ ?_))
    exact Progress.asks_map (fun _ => rfl) (p.put c broken).2
  simp only [occurrences, hasked, returnsTo, htakes, hhome, stepsGet, Action.breaks, failsDial,
    snd_put hconn broken]
  by_cases hji : j = i
  -- What becomes of it is decided by whether it is broken, whether its shard is in service, and
  -- whether this has room.
  · subst hji
    have hfull : (p.shard j).acceptsIdle = false → p.isFull j = false := fun h => by
      simp [isFull, h]
    cases broken <;> cases haccepts : (p.shard j).acceptsIdle <;> cases hroom : p.isFull j <;>
      cases k <;> simp_all [returned, Progress.asks, Call.dials, closes]
  · cases broken <;> cases (p.shard j).acceptsIdle <;> cases p.isFull j <;>
      cases k <;> simp [returned, Progress.asks, Call.dials, closes, hhome, hji]

/-- What is not lent is not taken back, and then nothing is counted. -/
theorem occurrences_put_of_not_lent (hlent : p.isLent c = false) (broken : Bool) :
    occurrences i k p (.start (.put c broken)) = 0 := by
  have hstart := start_put_of_not_lent hlent broken
  have hreturns : p.returnsTo i (.start (.put c broken)) = false := by
    simp [returnsTo, takesBack, hstart]
  have hasked : p.asked (.start (.put c broken)) = [] := by
    refine asked_of_calls ?_
    rw [act, hstart, List.append_nil]
  rw [occurrences_eq_heard rfl rfl hreturns, hasked]
  exact heard_nil

end Put

section Step

theorem occurrences_of_get (hget : p.stepsGet a = true) (hreturns : p.returnsTo i a = false) :
    occurrences i k p a =
      p.heardOfGet i (p.asked a) k + if k = .dialErrors then (p.failsDial i a).toNat else 0 := by
  cases k <;> simp [occurrences, heardOfGet, heard, hget, hreturns]

/-- A request that begins does what its action is said to bring. -/
theorem occurrences_start (hp : p.Shelved) (request : Request) : ∃ l, p.Does l (p.begin request).1 ∧
    ∀ i k, l.count (.counts i k) = occurrences i k p (.start request) := by
  have hasked : p.asked (.start request) =
      (p.begin request).2.asks (·.call? (p.begin request).1) :=
    asked_of_calls (calls_start p request)
  cases request with
  | get =>
    refine ⟨_, Does.get p, fun i k => ?_⟩
    have hmap : (p.begin .get).2.asks (·.call? (p.begin .get).1) =
        p.get.2.asks fun g => (Task.get g).call? p.get.1 := Progress.asks_map (fun _ => rfl) p.get.2
    rw [occurrences_of_get rfl rfl, hasked, hmap,
      heardOfGet_progress hp (fun g => givesUp_of_get) (Does.get p).length]
    simp [failsDial]
  | put c broken =>
    cases hlent : p.isLent c with
    | true =>
      obtain ⟨j, lastUsed, hconn⟩ := exists_conn_of_isLent hlent
      exact ⟨_, Does.put p hconn broken, fun i k => occurrences_put hconn broken⟩
    | false =>
      have hdoes : p.Does [] (p.put c broken).1 := by
        rw [put_of_not_lent hlent]
        exact .refl p
      exact ⟨[], hdoes, fun i k => (occurrences_put_of_not_lent hlent broken).symm⟩
  | strayPut =>
    refine ⟨[], .refl p, fun i k => ?_⟩
    rw [occurrences_eq_heard rfl rfl rfl, hasked]
    cases k <;> rfl
  | mark j healthy =>
    refine ⟨[], .refl p, fun i k => ?_⟩
    rw [occurrences_eq_heard rfl rfl rfl, hasked]
    change 0 = p.heard i (((p.mark j healthy).map Task.verdict Answer.changed).asks _) k
    unfold mark
    split <;> exact heard_nil.symm
  | check address =>
    refine ⟨[], .refl p, fun i k => ?_⟩
    rw [occurrences_eq_heard rfl rfl rfl, hasked]
    change 0 = p.heard i (((p.check address).map Task.check Answer.healthy).asks _) k
    unfold check nextAttempt
    split
    · exact (heard_check _).symm
    · exact heard_nil.symm
  | shutdown =>
    refine ⟨_, Does.shutdown p, fun i k => ?_⟩
    have hmap : (p.begin .shutdown).2.asks (·.call? (p.begin .shutdown).1) =
        p.shutdown.2.asks fun s => (Task.shutdown s).call? p.shutdown.1 :=
      Progress.asks_map (fun _ => rfl) p.shutdown.2
    rw [occurrences_eq_heard rfl rfl rfl, hasked, hmap]
    exact heard_shutdown

/-- A step of a task that is no get brings what it asks for. -/
theorem occurrences_resume_of_ne_get {id : TaskId} {t : Task} (ht : p.task? id = some t)
    (hother : ∀ g, t ≠ .get g) (reply : Reply) :
    occurrences i k p (.resume id reply) = p.heard i (p.asked (.resume id reply)) k := by
  refine occurrences_eq_heard ?_ ?_ rfl
  · rw [stepsGet, ht]
    cases t with
    | get g => exact absurd rfl (hother g)
    | _ => rfl
  · cases reply with
    | ok _ => rfl
    | error e =>
      rw [failsDial, call?, ht, Option.bind_some]
      cases t with
      | get g => exact absurd rfl (hother g)
      | put | strayPut => rfl
      | verdict v => cases v <;> rfl
      | check c =>
        obtain ⟨address, attempt, checking⟩ := c
        cases checking <;> rfl
      | shutdown s => cases s <;> rfl

/-- A task that takes a step does what the action is said to bring. -/
theorem occurrences_resume (hwf : p.WellFormed) (hp : p.Conserved .free p.held) {id : TaskId}
    {t : Task} (ht : p.task? id = some t) (reply : Reply) : ∃ l, p.Does l (p.advance t reply).1 ∧
    ∀ i k, l.count (.counts i k) = occurrences i k p (.resume id reply) := by
  have hasked : p.asked (.resume id reply) =
      (p.advance t reply).2.asks (·.call? (p.advance t reply).1) :=
    asked_of_calls (calls_resume ht reply)
  cases t with
  | get g =>
    refine ⟨_, Does.resumeGet p g reply, fun i k => ?_⟩
    have hmap : (p.advance (.get g) reply).2.asks (·.call? (p.advance (.get g) reply).1) =
        (p.resumeGet g reply).2.asks fun g' => (Task.get g').call? (p.resumeGet g reply).1 :=
      Progress.asks_map (fun _ => rfl) (p.resumeGet g reply).2
    rw [occurrences_of_get (by rw [stepsGet, ht]) rfl, hasked, hmap]
    have hcall : p.call? id = (Task.get g).call? p := by rw [call?, ht, Option.bind_some]
    exact count_resumeGet hp (hwf.task?_eq_some_iff.mp ht) hcall reply
  | put c =>
    refine ⟨[], .refl p, fun i k => ?_⟩
    rw [occurrences_resume_of_ne_get ht (by simp), hasked]
    exact heard_nil.symm
  | strayPut =>
    refine ⟨[], ?_, fun i k => ?_⟩
    · cases reply with
      | ok _ => exact .refl p
      | error e => exact .note p _
    · rw [occurrences_resume_of_ne_get ht (by simp), hasked]
      exact heard_nil.symm
  | verdict v =>
    refine ⟨_, Does.resumeVerdict p v reply, fun i k => ?_⟩
    have hmap : (p.advance (.verdict v) reply).2.asks (·.call? (p.advance (.verdict v) reply).1) =
        (p.resumeVerdict v reply).2.asks Verdict.call? :=
      Progress.asks_map (fun _ => rfl) (p.resumeVerdict v reply).2
    rw [occurrences_resume_of_ne_get ht (by simp), hasked, hmap]
    exact heard_resumeVerdict hp.shelved v reply
  | check c =>
    refine ⟨[], Does.resumeCheck p c reply, fun i k => ?_⟩
    have hmap : (p.advance (.check c) reply).2.asks (·.call? (p.advance (.check c) reply).1) =
        (p.resumeCheck c reply).2.asks fun c => some c.call :=
      Progress.asks_map (fun _ => rfl) (p.resumeCheck c reply).2
    rw [occurrences_resume_of_ne_get ht (by simp), hasked, hmap]
    cases (p.resumeCheck c reply).2 with
    | waits c' => exact (heard_check c').symm
    | done _ => exact heard_nil.symm
  | shutdown s =>
    obtain ⟨js, -, hdoes⟩ := Does.resumeShutdown p s reply
    refine ⟨_, hdoes, fun i k => ?_⟩
    have hmap : (p.advance (.shutdown s) reply).2.asks
          (·.call? (p.advance (.shutdown s) reply).1) =
        (p.resumeShutdown s reply).2.asks
          fun s' => (Task.shutdown s').call? (p.resumeShutdown s reply).1 :=
      Progress.asks_map (fun _ => rfl) (p.resumeShutdown s reply).2
    rw [occurrences_resume_of_ne_get ht (by simp), hasked, hmap]
    exact heard_resumeShutdown hp.shelved s reply js

private theorem occurrences_of_silent (hget : p.stepsGet a = false)
    (hfails : p.failsDial i a = false)
    (hreturns : p.returnsTo i a = false) (hcalls : (p.act a).calls = p.calls) :
    occurrences i k p a = 0 := by
  have hasked : p.asked a = [] := asked_of_calls (hcalls.trans (List.append_nil _).symm)
  rw [occurrences_eq_heard hget hfails hreturns, hasked]
  exact heard_nil

theorem tally_of_shards (hshards : q.shards = p.shards) :
    (q.shard i).tally.of k = (p.shard i).tally.of k := by
  rw [shard, hshards, ← shard]

/-- The health checker's step counts what it is said to bring. -/
theorem tally_errand (hp : p.Conserved .free p.held) (hi : i < p.shards.length) {e : Errand}
    {due : Duration} {reply : Reply} (ha : p.act a =
      (p.resumeErrand e reply).1.setErrand due (p.resumeErrand e reply).2)
    (hget : p.stepsGet a = false) (hfails : p.failsDial i a = false)
    (hreturns : p.returnsTo i a = false) :
    ((p.act a).shard i).tally.of k = (p.shard i).tally.of k + occurrences i k p a := by
  have hdoes := Does.resumeErrand p e reply
  have hasked : p.asked a = (p.resumeErrand e reply).2.asks (·.inspection.call?) :=
    asked_of_calls ((congrArg calls ha).trans (calls_errand p due e reply))
  rw [ha, tally_of_shards (shards_setErrand _ _ _), hdoes.tally i hi,
    occurrences_eq_heard hget hfails hreturns, hasked, heard_resumeErrand,
    heard_resumeInspection hp.shelved]

theorem resumeChecker_cases (p : Pool) (reply : Reply) :
    (∃ due e, p.resumeChecker reply =
      (p.resumeErrand e reply).1.setErrand due (p.resumeErrand e reply).2) ∨
    p.resumeChecker reply = p := by
  unfold resumeChecker
  split
  · split
    · exact .inl ⟨_, _, rfl⟩
    · exact .inr rfl
  · exact .inr rfl

/-- What the action's snapshots of a shard say of a counter, and what the shard says after it, is
what it has said before and what the action brings. -/
theorem tally_act (hwf : p.WellFormed) (hp : p.Conserved .free p.held) (hi : i < p.shards.length)
    (a : Action) (k : Counter) :
    ((snapshots i p a).map (·.tally.of k)).sum + ((p.act a).shard i).tally.of k =
      (p.shard i).tally.of k + occurrences i k p a := by
  cases a with
  | start request =>
    obtain ⟨l, hdoes, hl⟩ := occurrences_start hp.shelved request
    obtain ⟨_, _, _, hstart⟩ := exists_start_eq p request
    change 0 + ((p.start request).1.shard i).tally.of k = _
    rw [← hl, ← hdoes.tally i hi, hstart, Nat.zero_add]
    rfl
  | resume id reply =>
    change 0 + ((p.resume id reply).1.shard i).tally.of k = _
    cases ht : p.task? id with
    | none =>
      have hsame : (p.resume id reply).1 = p := by simp only [resume, ht]
      have hfails : p.failsDial i (.resume id reply) = false := by
        cases reply with
        | ok _ => rfl
        | error e => rw [failsDial, call?, ht]; rfl
      rw [occurrences_of_silent (by rw [stepsGet, ht]) hfails rfl (congrArg calls hsame), hsame,
        Nat.zero_add, Nat.add_zero]
    | some t =>
      obtain ⟨l, hdoes, hl⟩ := occurrences_resume hwf hp ht reply
      obtain ⟨_, _, hresume⟩ := exists_resume_eq ht reply
      rw [← hl, ← hdoes.tally i hi, hresume, Nat.zero_add]
      rfl
  | turn =>
    refine (Nat.zero_add _).trans ?_
    obtain ⟨due, e, -, hturn⟩ | ⟨hshards, -, probes, hcalls, hprobes⟩ := turn_cases (i := i) p
    · exact tally_errand hp hi (a := .turn) hturn rfl rfl rfl
    · have hasked : p.asked .turn = probes := asked_of_calls hcalls
      rw [occurrences_eq_heard rfl rfl rfl, hasked, heard_of_probes hprobes, Nat.add_zero]
      exact tally_of_shards hshards
  | resumeChecker reply =>
    refine (Nat.zero_add _).trans ?_
    obtain ⟨due, e, hresume⟩ | hsame := resumeChecker_cases p reply
    · exact tally_errand hp hi (a := .resumeChecker reply) hresume rfl rfl rfl
    · have hsilent : occurrences i k p (.resumeChecker reply) = 0 :=
        occurrences_of_silent rfl rfl rfl (congrArg calls hsame)
      rw [hsilent, Nat.add_zero]
      exact tally_of_shards (congrArg Pool.shards hsame)
  | setTime now | abandon =>
    rw [occurrences_of_silent rfl rfl rfl rfl]
    exact Nat.zero_add _
  | takeStats =>
    rw [occurrences_of_silent rfl rfl rfl rfl]
    exact snapshot_add_tally hi (.inl rfl) k
  | takeShardStats j =>
    rw [occurrences_of_silent rfl rfl rfl rfl]
    exact snapshot_add_tally hi (.inr ⟨j, rfl⟩) k

/-- The calls of the factory are those that are asked with the actions, one after the other. -/
theorem calls_act (p : Pool) (a : Action) : (p.act a).calls = p.calls ++ p.asked a := by
  have hcalls : ∃ cs, (p.act a).calls = p.calls ++ cs := by
    cases a with
    | start request => exact ⟨_, calls_start p request⟩
    | resume id reply =>
      cases ht : p.task? id with
      | none =>
        have hsame : (p.resume id reply).1 = p := by simp only [resume, ht]
        exact ⟨[], (congrArg calls hsame).trans (List.append_nil _).symm⟩
      | some t => exact ⟨_, calls_resume ht reply⟩
    | turn =>
      obtain ⟨due, e, -, hturn⟩ | ⟨-, -, probes, hcalls, -⟩ := turn_cases (i := 0) p
      · exact ⟨_, (congrArg calls hturn).trans (calls_errand p due e (.ok ()))⟩
      · exact ⟨_, hcalls⟩
    | resumeChecker reply =>
      obtain ⟨due, e, hresume⟩ | hsame := resumeChecker_cases p reply
      · exact ⟨_, (congrArg calls hresume).trans (calls_errand p due e reply)⟩
      · exact ⟨[], (congrArg calls hsame).trans (List.append_nil _).symm⟩
    | setTime | takeStats | takeShardStats | abandon => exact ⟨[], (List.append_nil _).symm⟩
  obtain ⟨cs, hcs⟩ := hcalls
  rw [asked_of_calls hcs, hcs]

end Step

section Run

variable {as : List Action}

theorem calls_after (p : Pool) (as : List Action) :
    (p.after as).calls = p.calls ++ along asked p as := by
  induction as generalizing p with
  | nil => exact (List.append_nil _).symm
  | cons a as ih => rw [after, ih, calls_act, along, List.append_assoc]

theorem total_eq (hruns : p.Runs as) (hwf : p.WellFormed) (hp : p.Conserved .free p.held)
    (hi : i < p.shards.length) (k : Counter) :
    p.total as i k = (p.shard i).tally.of k + p.occurred as i k := by
  induction as generalizing p with
  | nil => exact Nat.zero_add _
  | cons a as ih =>
    obtain ⟨hadmits, hon⟩ := hruns
    have hlen := (fixed_act hadmits hwf).2
    have hrest := ih hon (hwf.act a) (invariant_conserved.effect (effect_act hwf hadmits) hp)
      (hlen ▸ hi)
    have hstep := tally_act hwf hp hi a k
    simp only [total, occurred, along, after, List.map_append, List.sum_append,
      List.sum_singleton] at hrest ⊢
    omega

/-- Every counter of a shard is exact. Whatever the order in which the activities of a pool take
their turns, and whenever its statistics are read, what all snapshots of the shard so far say of a
counter, with what it says now, is how often that has happened which it counts. The dials that have
not failed, less the connections that were closed, are the lent connections with the dials under
way, the idle ones, and those under validation. -/
theorem statistics_exact {config : Config} {addresses : List String} {now : Duration}
    (hcreate : create config addresses now = .ok p) (hruns : p.Runs as)
    (hi : i < addresses.length) :
    (∀ k, p.total as i k = p.occurred as i k) ∧
      (p.after as).calls = along asked p as ∧
      p.total as i .dials = p.total as i .dialErrors + p.total as i .closes +
        ((p.after as).shard i).active + ((p.after as).shard i).idle.length +
        (p.after as).validating i := by
  have hlen := length_shards_of_create hcreate
  have htally : ∀ k, (p.shard i).tally.of k = 0 := fun k => by
    rw [shard_of_create hcreate hi]
    cases k <;> rfl
  have hcalls : p.calls = [] := by
    obtain ⟨_, _, rfl⟩ := eq_of_create hcreate
    rfl
  refine ⟨fun k => ?_, ?_, total_dials_eq hcreate hruns hi⟩
  · rw [total_eq hruns (.of_create hcreate) (conserved_of_create hcreate) (hlen ▸ hi), htally,
      Nat.zero_add]
  · rw [calls_after, hcalls, List.nil_append]

/-- Two connections are dialed, and the dial of a third fails and is made again, with the statistics
read in between; of the two connections that are returned one finds the queue full, and the other is
validated. -/
theorem statistics_exact_between_snapshots :
    ∃ p, create { maxIdle := 1, testOnBorrow := true } ["a:1"] .zero = .ok p ∧ ∃ as, p.Runs as ∧
      p.total as 0 .dials = 4 ∧ p.total as 0 .dialErrors = 1 ∧ p.total as 0 .evictions = 1 ∧
      (p.after as).calls = along asked p as ∧
      p.total as 0 .dials = p.total as 0 .dialErrors + p.total as 0 .closes +
        ((p.after as).shard 0).active + ((p.after as).shard 0).idle.length +
        (p.after as).validating 0 := by
  let as : List Action := [.start .get, .start .get, .takeStats, .start .get, .resume 0 (.ok ()),
    .resume 1 (.ok ()), .resume 2 (.error .poolExhausted), .takeShardStats 0,
    .start (.put 0 false), .start (.put 1 false), .start .get]
  have hcreate : create { maxIdle := 1, testOnBorrow := true } ["a:1"] .zero = .ok _ := rfl
  refine ⟨_, hcreate, as, by decide, ?_, ?_, ?_, ?_⟩
  · exact ((statistics_exact hcreate (by decide) (by decide)).1 .dials).trans (by decide)
  · exact ((statistics_exact hcreate (by decide) (by decide)).1 .dialErrors).trans (by decide)
  · exact ((statistics_exact hcreate (by decide) (by decide)).1 .evictions).trans (by decide)
  · exact (statistics_exact hcreate (by decide) (by decide)).2

end Run

end Pool

end QuorumPool
