import QuorumPool.Proofs.Loans

namespace QuorumPool

/-- Whether the call dials a connection for lending. -/
def Call.isDial : Call → Bool
  | dial .. => true
  | probe _ | validate _ | close _ => false

namespace Pool

/-- The call that the action answers. -/
def answeredCall? (p : Pool) : Action → Option Call
  | .resume id _ => p.call? id
  | .resumeChecker _ => p.checkerCall?
  | _ => none

/-- Whether a dial succeeds with the action. -/
def adopts (p : Pool) : Action → Bool
  | .resume id (.ok _) => (p.call? id).any Call.isDial
  | _ => false

variable {p q : Pool} {i : Nat} {c : ConnId} {id : TaskId} {reply : Reply}

section Calls

theorem isDial_check (c : Check) : c.call.isDial = false := by
  obtain ⟨address, attempt, checking⟩ := c
  cases checking <;> rfl

/-- Only gets dial. -/
theorem isDial_of_not_get {t : Task} (ht : ∀ g, t ≠ .get g) :
    (t.call? p).any Call.isDial = false := by
  cases t with
  | get g => exact absurd rfl (ht g)
  | put c => rfl
  | strayPut => rfl
  | verdict v => cases v <;> rfl
  | check c => exact isDial_check c
  | shutdown s => cases s <;> rfl

/-- Only gets validate connections of the pool's own. -/
theorem validating_of_call {t : Task} (hcall : t.call? p = some (.validate (.own c))) :
    ∃ start attempt, t = .get ⟨start, attempt, .validating c⟩ := by
  cases t with
  | get g =>
    obtain ⟨start, attempt, b⟩ := g
    cases b with
    | validating d =>
      cases hcall
      exact ⟨start, attempt, rfl⟩
    | discarding d => cases hcall
    | dialing => cases hcall
  | put d => cases hcall
  | strayPut => cases hcall
  | verdict v => cases v <;> cases hcall
  | check c =>
    obtain ⟨address, attempt, checking⟩ := c
    cases checking <;> cases hcall
  | shutdown s => cases s <;> cases hcall

theorem exists_validating_of_call (hcall : p.call? id = some (.validate (.own c))) :
    ∃ start attempt, p.task? id = some (.get ⟨start, attempt, .validating c⟩) := by
  obtain ⟨t, ht, hcall⟩ := Option.bind_eq_some_iff.mp hcall
  obtain ⟨start, attempt, rfl⟩ := validating_of_call hcall
  exact ⟨start, attempt, ht⟩

/-- The health checker probes, and closes what a demotion has drained. -/
theorem not_own_of_checkerCall {call : Call} (hcall : p.checkerCall? = some call) :
    call.isDial = false ∧ ∀ c, call ≠ .validate (.own c) := by
  unfold checkerCall? at hcall
  split at hcall
  · rename_i due e hchecker
    cases hinspection : e.inspection with
    | checking i c =>
      obtain rfl : c.call = call := by simpa [hinspection, Inspection.call?] using hcall
      refine ⟨isDial_check c, fun d hd => ?_⟩
      obtain ⟨address, attempt, checking⟩ := c
      cases checking <;> cases hd
    | judging v =>
      rw [hinspection] at hcall
      cases v with
      | deciding i healthy => cases hcall
      | draining i c drained =>
        cases hcall
        exact ⟨rfl, nofun⟩
  · cases hcall

/-- A dial for lending, or a test of a connection of the pool's own, is answered to a task. -/
theorem exists_resume_of_own {a : Action} {call : Call} (hcall : p.answeredCall? a = some call)
    (hown : call.isDial = true ∨ ∃ c, call = .validate (.own c)) :
    ∃ id reply, a = .resume id reply ∧ p.call? id = some call := by
  cases a with
  | resume id reply => exact ⟨id, reply, rfl, hcall⟩
  | resumeChecker reply =>
    obtain ⟨hdial, hvalidate⟩ := not_own_of_checkerCall hcall
    obtain hown | ⟨c, rfl⟩ := hown
    · rw [hdial] at hown
      cases hown
    · exact absurd rfl (hvalidate c)
  | _ => cases hcall

/-- Without a dial no connection comes into being. -/
theorem adopts_eq_false {a : Action} (hcall : (p.answeredCall? a).any Call.isDial = false) :
    p.adopts a = false := by
  cases a with
  | resume id reply =>
    cases reply with
    | ok _ => exact hcall
    | error e => rfl
  | _ => rfl

/-- A connection that fails its validation is handed over to be closed. -/
theorem closeCalls_of_invalid {start attempt : Nat}
    (ht : p.task? id = some (.get ⟨start, attempt, .validating c⟩)) (e : PoolError) :
    0 < (p.resume id (.error e)).1.closeCalls c := by
  refine List.count_pos_iff.mpr ?_
  simp only [resume, ht, advance, resumeGet, resumeBorrow, discard, Prod.map, Progress.map]
  exact List.mem_cons_self

end Calls

section Closes

/-- The pool waits for a connection of its own to be closed. -/
def AwaitsClose (p : Pool) (c : ConnId) : Prop :=
  (∃ x ∈ p.tasks, x.2.call? p = some (.close (.own c))) ∨ p.checkerCall? = some (.close (.own c))

/-- What a pool waits to be closed it has asked for. -/
def Asked (p : Pool) : Prop := ∀ c, p.AwaitsClose c → 0 < p.closeCalls c

/-- Which connection a task waits to be closed does not depend on the pool. -/
theorem call?_eq_close_iff {t : Task} :
    t.call? p = some (.close (.own c)) ↔ t.call? q = some (.close (.own c)) := by
  cases t with
  | get g =>
    obtain ⟨start, attempt, b⟩ := g
    cases b <;> simp [Task.call?]
  | shutdown s => cases s <;> exact Iff.rfl
  | _ => exact Iff.rfl

private theorem closeCalls_askFor {t : Task} (ht : t.call? q = some (.close (.own c))) :
    0 < (p.askFor t).closeCalls c := by
  rw [askFor, call?_eq_close_iff.mp ht]
  exact List.count_pos_iff.mpr List.mem_cons_self

theorem closeCalls_setErrand {due : Duration} {w : Progress Errand Unit}
    (hcall : (p.setErrand due w).checkerCall? = some (.close (.own c))) :
    0 < (p.setErrand due w).closeCalls c := by
  cases w with
  | done _ => cases hcall
  | waits e =>
    have hasked : e.inspection.call? = some (.close (.own c)) := by
      cases hnone : e.inspection.call? with
      | none => simp [setErrand, checkerCall?, hnone] at hcall
      | some call => simpa [setErrand, checkerCall?, ask, hnone] using hcall
    simp only [setErrand, hasked]
    exact List.count_pos_iff.mpr List.mem_cons_self

private theorem checkerCall?_turn (hcall : p.turn.checkerCall? = some (.close (.own c))) :
    p.checkerCall? = some (.close (.own c)) ∨ 0 < p.turn.closeCalls c := by
  revert hcall
  unfold turn
  split
  · exact nofun
  · split
    · exact nofun
    split
    · exact fun hcall => .inr (closeCalls_setErrand hcall)
    · split
      · exact fun hcall => .inr (closeCalls_setErrand hcall)
      · exact .inl
  · split
    · exact .inl
    · exact fun hcall => .inr (closeCalls_setErrand hcall)
  · exact .inl

private theorem checkerCall?_resumeChecker {reply : Reply}
    (hcall : (p.resumeChecker reply).checkerCall? = some (.close (.own c))) :
    p.checkerCall? = some (.close (.own c)) ∨ 0 < (p.resumeChecker reply).closeCalls c := by
  revert hcall
  unfold resumeChecker
  split
  · split
    · exact fun hcall => .inr (closeCalls_setErrand hcall)
    · exact .inl
  · exact .inl

/-- What the health checker waits to be closed it waited for before, or has asked for with the
action. -/
theorem checkerCall?_act (hwf : p.WellFormed) {a : Action}
    (hcall : (p.act a).checkerCall? = some (.close (.own c))) :
    p.checkerCall? = some (.close (.own c)) ∨ 0 < (p.act a).closeCalls c := by
  cases a with
  | start request =>
    obtain ⟨tasks, nextTask, journal, hstart⟩ := exists_start_eq p request
    rw [Pool.act, hstart] at hcall
    left
    rw [checkerCall?, ← (leads_begin hwf request).moves.checker_eq]
    exact hcall
  | resume id reply =>
    left
    cases ht : p.task? id with
    | none => simpa only [Pool.act, resume, ht] using hcall
    | some t =>
      have hverdict : ∀ v, t = .verdict v → v.shard < p.shards.length := by
        rintro v rfl
        exact hwf.verdicts id v (hwf.task?_eq_some_iff.mp ht)
      obtain ⟨tasks, journal, hresume⟩ := exists_resume_eq ht reply
      rw [Pool.act, hresume] at hcall
      rw [checkerCall?, ← (leads_advance hwf.shards hverdict reply).moves.checker_eq]
      exact hcall
  | turn => exact checkerCall?_turn hcall
  | resumeChecker reply => exact checkerCall?_resumeChecker hcall
  | setTime | takeStats | takeShardStats | abandon => exact .inl hcall

/-- An action leaves nothing to be closed that was not asked for. -/
theorem Asked.act (hp : p.Asked) (hwf : p.WellFormed) {a : Action} (hadmits : p.Admits a) :
    (p.act a).Asked := by
  have hruns : p.Runs [a] := ⟨hadmits, trivial⟩
  have hcalls := ((invariant_extends p).after hruns hwf (.refl p)).closeCalls
  have hold : ∀ c, p.AwaitsClose c → 0 < (p.act a).closeCalls c := fun c hc =>
    Nat.lt_of_lt_of_le (hp c hc) (hcalls c)
  rintro c (⟨⟨id, t⟩, ht, hcall⟩ | hcall)
  · obtain ⟨-, hmem⟩ | ⟨reply, u, rfl, hu, hadvance⟩ | ⟨-, request, rfl, hbegin⟩ :=
      mem_tasks_act hwf ht
    · exact hold c (.inl ⟨_, hmem, call?_eq_close_iff.mp hcall⟩)
    · simp only [Pool.act, resume, hwf.task?_eq_some_iff.mpr hu]
      rcases hr : p.advance u reply with ⟨q, w⟩
      rw [hr] at hadvance
      obtain rfl := hadvance
      exact closeCalls_askFor hcall
    · simp only [Pool.act, start]
      rcases hr : p.begin request with ⟨q, w⟩
      rw [hr] at hbegin
      obtain rfl := hbegin
      exact closeCalls_askFor hcall
  · exact (checkerCall?_act hwf hcall).elim (fun hchecker => hold c (.inr hchecker)) id

end Closes

section Length

theorem length_conns_modifyConn (c : ConnId) (f : Conn → Conn) :
    (p.modifyConn c f).conns.length = p.conns.length := List.length_modify ..

theorem length_conns_serve (p : Pool) (i : Nat) :
    (p.serve i).1.conns.length = p.conns.length := by
  unfold serve
  dsimp only
  split
  · split
    · rfl
    split
    · rfl
    · exact length_conns_modifyConn ..
  · split <;> rfl

theorem length_conns_borrow (p : Pool) (i : Nat) :
    (p.borrow i).1.conns.length = p.conns.length := by
  unfold borrow
  split
  · rfl
  · exact length_conns_serve ..

theorem length_conns_of_visits {start : Nat}
    {w : Pool × Progress Getting (Except PoolError ConnId)} (hvisits : p.Visits start w) :
    w.1.conns.length = p.conns.length := by
  cases hvisits with
  | exhausted htwin => rw [htwin.conns]
  | @waits q r a s htwin _ hborrow =>
    rw [← htwin.conns, ← length_conns_borrow q (p.visited start a), hborrow]
  | @lends q r a c htwin _ hborrow =>
    rw [← htwin.conns, ← length_conns_borrow q (p.visited start a), hborrow]

theorem length_conns_get (p : Pool) : p.get.1.conns.length = p.conns.length := by
  unfold get
  split
  · rfl
  · exact length_conns_of_visits ((visits p.rotate _ _ _).after .rotate)

theorem length_conns_resumeBorrow (p : Pool) (i : Nat) (b : Borrowing) (reply : Reply) :
    (p.resumeBorrow i b reply).1.conns.length =
      p.conns.length + if b = .dialing ∧ reply = .ok () then 1 else 0 := by
  cases b with
  | discarding c =>
    rw [if_neg (by simp), Nat.add_zero, ← (Twin.noteIdleClose (p := p) i reply).conns]
    exact length_conns_serve ..
  | validating c =>
    rw [if_neg (by simp), Nat.add_zero]
    cases reply with
    | ok _ => exact length_conns_modifyConn ..
    | error e => rfl
  | dialing =>
    cases reply with
    | ok _ =>
      rw [if_pos ⟨rfl, rfl⟩, ← (Twin.recordOutcome (p := p) i false).conns]
      exact List.length_append
    | error e =>
      rw [if_neg (by simp), Nat.add_zero, ← (Peer.failDial (p := p) i e).conns]
      rfl

theorem length_conns_resumeGet (p : Pool) (g : Getting) (reply : Reply) :
    (p.resumeGet g reply).1.conns.length =
      p.conns.length + if g.borrowing = .dialing ∧ reply = .ok () then 1 else 0 := by
  rw [← length_conns_resumeBorrow p (p.visited g.start g.attempt)]
  unfold resumeGet
  dsimp only
  split <;> rename_i heq <;> rw [heq]
  rename_i q e
  exact (length_conns_of_visits (visits _ _ _ _)).trans (congrArg List.length
    (Twin.passOver (p := q) (p.visited g.start g.attempt) g.attempt e).conns)

theorem length_conns_put (p : Pool) (c : ConnId) (broken : Bool) :
    (p.put c broken).1.conns.length = p.conns.length := by
  cases hlent : p.isLent c with
  | false => rw [put_of_not_lent hlent]
  | true =>
    obtain ⟨i, lastUsed, hconn⟩ := exists_conn_of_isLent hlent
    rw [(put_of_lent hconn rfl broken).1, conns_reclaim]
    exact length_conns_modifyConn ..

theorem length_conns_begin (p : Pool) (request : Request) :
    (p.begin request).1.conns.length = p.conns.length := by
  by_cases hget : request = .get
  · subst hget
    exact length_conns_get p
  by_cases hput : ∃ c broken, request = .put c broken
  · obtain ⟨c, broken, rfl⟩ := hput
    exact length_conns_put p c broken
  · rw [conns_begin hget fun c broken h => hput ⟨c, broken, h⟩]

theorem length_conns_resume (p : Pool) (id : TaskId) (reply : Reply) :
    (p.resume id reply).1.conns.length =
      p.conns.length + (p.adopts (.resume id reply)).toNat := by
  cases ht : p.task? id with
  | none =>
    have hadopts : p.adopts (.resume id reply) = false := by
      cases reply <;> simp [adopts, call?, ht]
    rw [hadopts]
    simp only [resume, ht]
    rfl
  | some t =>
    rw [conns_resume ht]
    by_cases hget : ∃ g, t = .get g
    · obtain ⟨g, rfl⟩ := hget
      refine (length_conns_resumeGet p g reply).trans (congrArg _ ?_)
      obtain ⟨start, attempt, b⟩ := g
      cases b <;> cases reply <;> simp [adopts, call?, ht, Task.call?, Call.isDial]
    · rw [not_exists] at hget
      have hadopts : p.adopts (.resume id reply) = false := by
        cases reply with
        | ok _ => simpa only [adopts, call?, ht, Option.bind_some] using isDial_of_not_get hget
        | error e => rfl
      rw [conns_advance hget, hadopts]
      rfl

/-- What an action does to the number of connections. -/
theorem length_conns_act (p : Pool) (a : Action) :
    (p.act a).conns.length = p.conns.length + (p.adopts a).toNat := by
  cases a with
  | start request =>
    change (p.start request).1.conns.length = _
    rw [conns_start]
    exact length_conns_begin p request
  | resume id reply => exact length_conns_resume p id reply
  | turn => exact congrArg List.length conns_turn
  | resumeChecker reply => exact congrArg List.length (conns_resumeChecker reply)
  | setTime | takeStats | takeShardStats | abandon => rfl

end Length

end Pool

end QuorumPool
