import QuorumPool.Proofs.Answers
import QuorumPool.Proofs.Service

namespace QuorumPool

/-- The connection that is lent, when a get is done. -/
def Progress.lent? {σ : Type} : Progress σ (Except PoolError ConnId) → Option ConnId
  | done (.ok c) => some c
  | _ => none

def Answer.lent? : Answer → Option ConnId
  | lent c => some c
  | _ => none

/-- Whether the action is a return. -/
def Action.isPut : Action → Bool
  | start (.put ..) => true
  | _ => false

theorem Answer.lent?_eq_some_iff {a : Answer} {c : ConnId} : a.lent? = some c ↔ a = .lent c := by
  cases a <;> simp [lent?]

namespace Pool

variable {p q r : Pool} {i : Nat} {c : ConnId} {P Q : Nat → Prop} {lent : Option ConnId}

/-- The connection belongs to the shard and is not lent. -/
def Spare (p : Pool) (i : Nat) (c : ConnId) : Prop := p.home c = some i ∧ p.isLent c = false

/-- Idle queues have connections of their own shards only, and none that is lent. -/
def Shelved (p : Pool) : Prop := ∀ i, ∀ c ∈ (p.shard i).idle, p.Spare i c

/-- Two pools with the same connections, idle ones in the same queues, and the same shards in
service. -/
structure Peer (p q : Pool) : Prop where
  conns : q.conns = p.conns
  length : q.shards.length = p.shards.length
  idle : ∀ j, (q.shard j).idle = (p.shard j).idle
  available : ∀ j, (q.shard j).available = (p.shard j).available

theorem Peer.trans (hpq : p.Peer q) (hqr : q.Peer r) : p.Peer r where
  conns := hqr.conns.trans hpq.conns
  length := hqr.length.trans hpq.length
  idle j := (hqr.idle j).trans (hpq.idle j)
  available j := (hqr.available j).trans (hpq.available j)

theorem Twin.peer (htwin : p.Twin q) : p.Peer q := by
  refine ⟨htwin.conns, htwin.length, fun j => ?_, fun j => ?_⟩ <;>
  · obtain ⟨fails, tally, hq⟩ := htwin.shard j
    rw [hq]

theorem Peer.modifyShard {f : Shard → Shard} (hidle : ∀ s, (f s).idle = s.idle)
    (havailable : ∀ s, (f s).available = s.available) : p.Peer (p.modifyShard i f) :=
  ⟨rfl, length_shards_modifyShard, idle_modifyShard hidle, aspect_modifyShard havailable⟩

theorem Peer.spare_iff (hpeer : p.Peer q) : q.Spare i c ↔ p.Spare i c := by
  rw [Spare, home, isLent, hpeer.conns]
  rfl

theorem Peer.shelved (hpeer : p.Peer q) (hp : p.Shelved) : q.Shelved := by
  intro i c hc
  exact hpeer.spare_iff.mpr (hp i c (hpeer.idle i ▸ hc))

/-- What a step does about loans. It makes one, of a connection of a shard with the given property,
or it makes none. -/
structure Lends (p : Pool) (P : Nat → Prop) (q : Pool) (lent : Option ConnId) : Prop where
  isLent : ∀ d, q.isLent d = (p.isLent d || decide (lent = some d))
  fresh : ∀ c, lent = some c → p.isLent c = false
  home : ∀ c, lent = some c → ∃ i, P i ∧ q.home c = some i

namespace Lends

theorem none (hconns : q.conns = p.conns) : p.Lends P q none := by
  refine ⟨fun d => ?_, by simp, by simp⟩
  rw [Pool.isLent, hconns, Pool.isLent]
  simp

/-- Only the connections matter of the pools before and after a step. -/
theorem congr (hlends : p.Lends P q lent) (hp : r.conns = p.conns) {r' : Pool}
    (hq : r'.conns = q.conns) (hPQ : ∀ j, P j → Q j) : r.Lends Q r' lent := by
  refine ⟨fun d => ?_, fun c hc => ?_, fun c hc => ?_⟩
  · rw [Pool.isLent, hq, Pool.isLent, hp]
    exact hlends.isLent d
  · rw [Pool.isLent, hp]
    exact hlends.fresh c hc
  · obtain ⟨i, hi, hhome⟩ := hlends.home c hc
    refine ⟨i, hPQ i hi, ?_⟩
    rw [Pool.home, hq]
    exact hhome

end Lends

section Borrow

theorem lends_lend (hspare : p.Spare i c) : p.Lends (· = i) (p.lend i c) (some c) := by
  refine ⟨fun d => ?_, fun d hd => ?_, fun d hd => ?_⟩
  · have hlent := isLent_modifyConn (g := fun conn => { conn with borrowed := true })
      (fun _ => rfl) (lt_length_of_home hspare.1) d
    refine hlent.trans ?_
    by_cases hcd : c = d <;> simp [hcd]
  · exact Option.some.inj hd ▸ hspare.2
  · refine ⟨i, rfl, ?_⟩
    rw [← Option.some.inj hd]
    exact (home_modifyConn (g := fun conn => { conn with borrowed := true }) (fun _ => rfl) c
      c).trans hspare.1

theorem lends_serve (hp : p.Shelved) (i : Nat) :
    p.Lends (· = i) (p.serve i).1 (p.serve i).2.lent? := by
  unfold serve
  dsimp only
  split
  · rename_i c rest hidle
    split
    · exact .none rfl
    split
    · exact .none rfl
    · have hspare : (p.dropIdle i).Spare i c := hp i c (hidle ▸ List.mem_cons_self)
      exact (lends_lend hspare).congr (r := p) rfl rfl fun _ hj => hj
  · split
    · exact .none rfl
    · exact .none rfl

theorem lends_borrow (hp : p.Shelved) (i : Nat) :
    p.Lends (· = i) (p.borrow i).1 (p.borrow i).2.lent? := by
  unfold borrow
  split
  · exact .none rfl
  · have hcount : p.Twin (p.count i Tally.countGet) := .count
    exact (lends_serve (hcount.peer.shelved hp) i).congr (r := p) rfl rfl fun _ hj => hj

/-- A shard that has nothing for a get changes nothing. -/
theorem serve_eq_error {e : PoolError} (hserve : p.serve i = (q, .done (.error e))) : q = p := by
  unfold serve discard at hserve
  dsimp only at hserve
  split at hserve
  · split at hserve
    · cases hserve
    split at hserve <;> cases hserve
  · split at hserve
    · cases hserve
    · exact (Prod.mk.inj hserve).1.symm

theorem borrow_eq_error {e : PoolError} (hborrow : p.borrow i = (q, .done (.error e))) :
    p.Twin q := by
  unfold borrow at hborrow
  split at hborrow
  · exact (Prod.mk.inj hborrow).1 ▸ .refl
  · rw [serve_eq_error hborrow]
    exact .count

theorem Twin.passOver (i attempt : Nat) (e : PoolError) : p.Twin (p.passOver i attempt e) :=
  Twin.rotate.trans (.note _)

/-- How the visits of a get end: at a shard in service at which it lends or waits, or without. -/
inductive Visits (p : Pool) (start : Nat) :
    Pool × Progress Getting (Except PoolError ConnId) → Prop
  | exhausted {q e} : p.Twin q → Visits p start (q, .done (.error e))
  | waits {q r a s} : p.Twin q → (p.shard (p.visited start a)).available = true →
      q.borrow (p.visited start a) = (r, .waits s) → Visits p start (r, .waits ⟨start, a, s⟩)
  | lends {q r a c} : p.Twin q → (p.shard (p.visited start a)).available = true →
      q.borrow (p.visited start a) = (r, .done (.ok c)) → Visits p start (r, .done (.ok c))

theorem Visits.after {start : Nat} {w : Pool × Progress Getting (Except PoolError ConnId)}
    (htwin : p.Twin q) (hvisits : q.Visits start w) : p.Visits start w := by
  have havailable : ∀ j, (q.shard j).available = (p.shard j).available := htwin.peer.available
  have hvisited : ∀ a, q.visited start a = p.visited start a := htwin.visited start
  cases hvisits with
  | exhausted h => exact .exhausted (htwin.trans h)
  | waits h hi hborrow =>
    rw [havailable, hvisited] at hi
    rw [hvisited] at hborrow
    exact .waits (htwin.trans h) hi hborrow
  | lends h hi hborrow =>
    rw [havailable, hvisited] at hi
    rw [hvisited] at hborrow
    exact .lends (htwin.trans h) hi hborrow

theorem visits (p : Pool) (start attempt left : Nat) :
    p.Visits start (p.visit start attempt left) := by
  induction left generalizing p attempt with
  | zero => exact .exhausted .refl
  | succ left ih =>
    unfold visit
    dsimp only
    split
    · rename_i havailable
      split <;> rename_i hborrow
      · exact .waits .refl havailable hborrow
      · exact .lends .refl havailable hborrow
      · exact (ih _ _).after ((borrow_eq_error hborrow).trans (.passOver _ _ _))
    · exact (ih _ _).after .rotate

theorem lends_of_visits {start : Nat} {w : Pool × Progress Getting (Except PoolError ConnId)}
    (hp : p.Shelved) (hvisits : p.Visits start w) :
    p.Lends (fun j => (p.shard j).available = true) w.1 w.2.lent? := by
  have hborrow {q : Pool} {i : Nat} (htwin : p.Twin q) (hi : (p.shard i).available = true) :
      p.Lends (fun j => (p.shard j).available = true) (q.borrow i).1 (q.borrow i).2.lent? := by
    refine (lends_borrow (htwin.peer.shelved hp) i).congr htwin.conns.symm rfl ?_
    rintro j rfl
    exact hi
  cases hvisits with
  | exhausted h => exact .none h.conns
  | waits h hi heq =>
    have hlends := hborrow h hi
    rw [heq] at hlends
    exact hlends
  | lends h hi heq =>
    have hlends := hborrow h hi
    rw [heq] at hlends
    exact hlends

theorem lends_get (hp : p.Shelved) :
    p.Lends (fun j => (p.shard j).available = true) p.get.1 p.get.2.lent? := by
  unfold get
  split
  · exact .none rfl
  · exact lends_of_visits hp ((visits p.rotate _ _ _).after .rotate)

end Borrow

section Resume

theorem Twin.offerSuspect (i : Nat) : p.Twin (p.offerSuspect i) := by
  unfold Pool.offerSuspect
  split
  · exact .refl
  split
  · exact ⟨rfl, rfl, fun _ => ⟨_, _, rfl⟩, rfl, rfl, rfl, rfl, rfl⟩
  · exact .note _

theorem Twin.recordOutcome (i : Nat) (failed : Bool) : p.Twin (p.recordOutcome i failed) := by
  obtain ⟨count, heq⟩ := exists_recordOutcome_eq p i failed
  have hfails : p.Twin (p.modifyShard i fun s => { s with fails := count s.fails }) :=
    .modifyShard fun _ => ⟨_, _, rfl⟩
  obtain heq | heq := heq
  · exact heq ▸ hfails
  · exact heq ▸ hfails.trans (.offerSuspect i)

theorem Peer.failDial (i : Nat) (e : PoolError) : p.Peer (p.failDial i e) := by
  have hrecord : p.Twin ((p.recordOutcome i true).count i Tally.countDialError) :=
    (Twin.recordOutcome i true).trans .count
  have hrelease : p.Peer (((p.recordOutcome i true).count i Tally.countDialError).modifyShard i
      Shard.releaseSlot) :=
    hrecord.peer.trans (.modifyShard (fun _ => rfl) fun _ => rfl)
  exact hrelease.trans (Twin.note _).peer

theorem Twin.noteIdleClose (i : Nat) (reply : Reply) : p.Twin (p.noteIdleClose i reply) := by
  cases reply with
  | ok _ => exact .refl
  | error e => exact .note _

/-- A freshly dialed connection is lent from the start. -/
theorem lends_adopt (i : Nat) : p.Lends (· = i) (p.adopt i) (some p.conns.length) := by
  have hconns : (p.adopt i).conns =
      p.conns ++ [⟨i, true, (p.recordOutcome i false).now⟩] := by
    rw [← (Twin.recordOutcome i false).conns]
    rfl
  refine ⟨fun (d : Nat) => ?_, fun d hd => ?_, fun d hd => ⟨i, rfl, ?_⟩⟩
  · rw [isLent, hconns, isLent]
    rcases Nat.lt_trichotomy d p.conns.length with hd | rfl | hd
    · rw [List.getElem?_append_left hd]
      simp [Nat.ne_of_gt hd]
    · simp
    · rw [List.getElem?_eq_none (by simp; omega), List.getElem?_eq_none (by omega)]
      simp [Nat.ne_of_lt hd]
  · rw [← Option.some.inj hd]
    simp [isLent]
  · rw [← Option.some.inj hd, home, hconns]
    simp

/-- The connection that is validated may be lent. -/
def Spared (p : Pool) (i : Nat) (b : Borrowing) : Prop := ∀ c, b = .validating c → p.Spare i c

theorem lends_resumeBorrow {b : Borrowing} (hp : p.Shelved) (hb : p.Spared i b) (reply : Reply) :
    p.Lends (· = i) (p.resumeBorrow i b reply).1 (p.resumeBorrow i b reply).2.lent? := by
  cases b with
  | discarding c =>
    have hnote : p.Twin (p.noteIdleClose i reply) := .noteIdleClose i reply
    exact (lends_serve (hnote.peer.shelved hp) i).congr hnote.conns.symm rfl fun _ hj => hj
  | validating c =>
    cases reply with
    | ok _ => exact lends_lend (hb c rfl)
    | error e => exact .none rfl
  | dialing =>
    cases reply with
    | ok _ => exact lends_adopt i
    | error e => exact .none (Peer.failDial i e).conns

theorem resumeBorrow_eq_error {b : Borrowing} {reply : Reply} {e : PoolError}
    (hresume : p.resumeBorrow i b reply = (q, .done (.error e))) : p.Peer q := by
  cases b with
  | discarding c =>
    rw [serve_eq_error hresume]
    exact (Twin.noteIdleClose i reply).peer
  | validating c => cases reply <;> cases hresume
  | dialing =>
    cases reply with
    | ok _ => cases hresume
    | error e' =>
      rw [← (Prod.mk.inj hresume).1]
      exact .failDial i e'

theorem lends_resumeGet {g : Getting} (hp : p.Shelved)
    (hg : p.Spared (p.visited g.start g.attempt) g.borrowing) (reply : Reply) :
    p.Lends (fun j => (p.shard j).available = true ∨ p.visited g.start g.attempt = j)
      (p.resumeGet g reply).1 (p.resumeGet g reply).2.lent? := by
  have hborrow := (lends_resumeBorrow hp hg reply).congr (r := p)
    (Q := fun j => (p.shard j).available = true ∨ p.visited g.start g.attempt = j) rfl rfl
    fun j hj => .inr hj.symm
  unfold resumeGet
  dsimp only
  split <;> rename_i heq
  · rw [heq] at hborrow
    exact hborrow
  · rw [heq] at hborrow
    exact hborrow
  · rename_i q e
    have hpeer : p.Peer (q.passOver (p.visited g.start g.attempt) g.attempt e) :=
      (resumeBorrow_eq_error heq).trans (Twin.passOver ..).peer
    refine (lends_of_visits (hpeer.shelved hp) (visits _ _ _ _)).congr hpeer.conns.symm rfl ?_
    intro j hj
    exact .inl (hpeer.available j ▸ hj)

end Resume

section Others

theorem conns_drain (i drained : Nat) : (p.drain i drained).1.conns = p.conns := by
  unfold drain
  dsimp only
  split <;> rfl

theorem conns_noteIdleClose (i : Nat) (reply : Reply) :
    (p.noteIdleClose i reply).conns = p.conns :=
  (Twin.noteIdleClose i reply).conns

theorem conns_resumeVerdict (v : Verdict) (reply : Reply) :
    (p.resumeVerdict v reply).1.conns = p.conns := by
  cases v with
  | deciding i healthy =>
    cases healthy with
    | true =>
      simp only [resumeVerdict, promote]
      split <;> rfl
    | false =>
      simp only [resumeVerdict, demote]
      split
      · rfl
      split
      · rfl
      · exact conns_drain i 0
  | draining i c drained => exact (conns_drain i _).trans (conns_noteIdleClose i reply)

theorem conns_resumeCheck (c : Check) (reply : Reply) :
    (p.resumeCheck c reply).1.conns = p.conns := by
  obtain ⟨journal, hcheck⟩ := exists_resumeCheck_eq p c reply
  rw [hcheck]

theorem conns_closeLast (left : Nat) : (p.closeLast left).1.conns = p.conns := by
  induction left generalizing p with
  | zero => rfl
  | succ left ih =>
    unfold closeLast
    dsimp only
    split
    · rfl
    · exact ih

theorem conns_closeOn (i drained : Nat) : (p.closeOn i drained).1.conns = p.conns := by
  unfold closeOn
  split
  · rfl
  · exact conns_closeLast _

theorem conns_enterShutdown : p.enterShutdown.1.conns = p.conns := by
  unfold enterShutdown
  split <;> rfl

theorem conns_resumeShutdown (s : Closing) (reply : Reply) :
    (p.resumeShutdown s reply).1.conns = p.conns := by
  cases s with
  | queued =>
    simp only [resumeShutdown]
    split
    · rfl
    · exact conns_enterShutdown
  | joining =>
    simp only [resumeShutdown]
    split
    · exact conns_closeLast _
    · rfl
  | draining i c drained => exact (conns_closeOn i _).trans (conns_noteIdleClose i reply)

theorem conns_resumeInspection (s : Inspection) (reply : Reply) :
    (p.resumeInspection s reply).1.conns = p.conns := by
  cases s with
  | checking i c =>
    rw [fst_resumeInspection_checking]
    exact conns_resumeCheck c reply
  | judging v =>
    rw [fst_resumeInspection_judging]
    exact conns_resumeVerdict v reply

theorem conns_setErrand (due : Duration) (w : Progress Errand Unit) :
    (p.setErrand due w).conns = p.conns := by
  unfold setErrand
  split
  · dsimp only
    split <;> rfl
  · rfl

theorem conns_resumeErrand (e : Errand) (due : Duration) (reply : Reply) :
    ((p.resumeErrand e reply).1.setErrand due (p.resumeErrand e reply).2).conns = p.conns := by
  rw [conns_setErrand, fst_resumeErrand]
  exact conns_resumeInspection e.inspection reply

theorem conns_turn : p.turn.conns = p.conns := by
  unfold turn
  split
  · rfl
  · split
    · rfl
    split
    · exact conns_setErrand _ _
    · split
      · exact conns_setErrand _ _
      · rfl
  · split
    · rfl
    · exact conns_resumeErrand _ _ _
  · rfl

theorem conns_resumeChecker (reply : Reply) : (p.resumeChecker reply).conns = p.conns := by
  unfold resumeChecker
  split
  · split
    · exact conns_resumeErrand _ _ _
    · rfl
  · rfl

/-- Only gets and returns change what is lent. -/
theorem conns_begin {request : Request} (hget : request ≠ .get)
    (hput : ∀ c broken, request ≠ .put c broken) : (p.begin request).1.conns = p.conns := by
  cases request with
  | get => exact absurd rfl hget
  | put c broken => exact absurd rfl (hput c broken)
  | shutdown =>
    change p.shutdown.1.conns = p.conns
    unfold shutdown
    split
    · rfl
    · exact conns_enterShutdown
  | strayPut | mark | check => rfl

theorem conns_advance {t : Task} (ht : ∀ g, t ≠ .get g) (reply : Reply) :
    (p.advance t reply).1.conns = p.conns := by
  cases t with
  | get g => exact absurd rfl (ht g)
  | put c => rfl
  | strayPut => cases reply <;> rfl
  | verdict v => exact conns_resumeVerdict v reply
  | check c => exact conns_resumeCheck c reply
  | shutdown s => exact conns_resumeShutdown s reply

end Others

section Act

theorem conns_askFor (t : Task) : (p.askFor t).conns = p.conns := by
  obtain ⟨journal, hask⟩ := exists_askFor_eq p t
  rw [hask]

theorem conns_start (request : Request) :
    (p.start request).1.conns = (p.begin request).1.conns := by
  unfold start
  rcases p.begin request with ⟨q, t | a⟩
  · exact conns_askFor t
  · rfl

theorem conns_resume {id : TaskId} {t : Task} (ht : p.task? id = some t) (reply : Reply) :
    (p.resume id reply).1.conns = (p.advance t reply).1.conns := by
  simp only [resume, ht]
  rcases p.advance t reply with ⟨q, t' | a⟩
  · exact conns_askFor t'
  · rfl

theorem Conserved.shelved {hs : List Hand} (hp : p.Conserved .free hs) : p.Shelved := by
  intro i c hc
  have hhome := hp.idle i c hc
  have hone := hp.presence c
  have hidle : 0 < (p.shard i).idle.count c := List.count_pos_iff.mpr hc
  refine ⟨hhome, ?_⟩
  cases hlent : p.isLent c with
  | false => rfl
  | true =>
    rw [Pool.presence, hlent, Bool.toNat_true, queued, hhome, Option.elim_some] at hone
    split at hone <;> omega

/-- A connection that is being validated waits for a loan. -/
theorem Conserved.spared (hp : p.Conserved .free p.held) {id : TaskId} {g : Getting}
    (ht : (id, .get g) ∈ p.tasks) : p.Spared (p.visited g.start g.attempt) g.borrowing := by
  obtain ⟨start, attempt, borrowing⟩ := g
  rintro c rfl
  have hheld : Hand.popped (p.visited start attempt) c ∈ p.held := List.mem_map_of_mem ht
  refine ⟨hp.hands _ (List.mem_cons_of_mem _ hheld) _ c rfl, ?_⟩
  have hone := hp.presence c
  have hvalid : 0 < p.validations c :=
    List.countP_pos_iff.mpr ⟨_, ht, by simp [Task.validates]⟩
  cases hlent : p.isLent c with
  | false => rfl
  | true =>
    rw [Pool.presence, sum_claims_held, hlent, Bool.toNat_true] at hone
    split at hone <;> omega

/-- The shards at which the action may lend: those in service, and the one at which the get waits
that it takes on. -/
def Reaches (p : Pool) (a : Action) (i : Nat) : Prop :=
  (p.shard i).available = true ∨ ∃ id reply g, a = .resume id reply ∧ (id, .get g) ∈ p.tasks ∧
    p.visited g.start g.attempt = i

/-- The connection that the action lends to the get it answers. -/
def lends? (p : Pool) (a : Action) : Option ConnId := (p.answer? a).bind Answer.lent?

theorem lends?_eq_some_iff {a : Action} : p.lends? a = some c ↔ p.answer? a = some (.lent c) := by
  simp [lends?, Option.bind_eq_some_iff, Answer.lent?_eq_some_iff]

theorem isPut_of_lends {a : Action} (hlends : p.lends? a = some c) : a.isPut = false := by
  cases a with
  | start request =>
    have hanswer := answer?_start_eq_some_iff.mp (lends?_eq_some_iff.mp hlends)
    rw [(begin_eq_done_lent hanswer).1]
    rfl
  | _ => rfl

/-- What lends a connection is a get that is answered by it. -/
theorem lends?_eq_none {a : Action} (ha : ∀ c, p.answer? a ≠ some (.lent c)) :
    p.lends? a = none := by
  rw [Option.eq_none_iff_forall_ne_some]
  exact fun c hc => ha c (lends?_eq_some_iff.mp hc)

theorem lends_start (hp : p.Conserved .free p.held) {request : Request}
    (hput : (Action.start request).isPut = false) :
    p.Lends (p.Reaches (.start request)) (p.start request).1 (p.lends? (.start request)) := by
  by_cases hget : request = .get
  · subst hget
    have hlent : p.lends? (.start .get) = p.get.2.lent? := by
      simp only [lends?, answer?, start, begin, Prod.map, id]
      rcases p.get with ⟨q, g | c | e⟩ <;> rfl
    rw [hlent]
    exact (lends_get hp.shelved).congr (r := p) rfl (conns_start .get) fun j hj => .inl hj
  · rw [lends?_eq_none fun c hanswer => ?_]
    · refine .none ((conns_start request).trans (conns_begin hget ?_))
      rintro c broken rfl
      cases hput
    · exact hget (begin_eq_done_lent (answer?_start_eq_some_iff.mp hanswer)).1

theorem lends_resume (hwf : p.WellFormed) (hp : p.Conserved .free p.held) (id : TaskId)
    (reply : Reply) :
    p.Lends (p.Reaches (.resume id reply)) (p.resume id reply).1 (p.lends? (.resume id reply)) := by
  cases ht : p.task? id with
  | none =>
    have hresume : p.resume id reply = (p, none) := by simp only [resume, ht]
    rw [lends?, answer?, hresume]
    exact .none rfl
  | some t =>
    by_cases hget : ∃ g, t = .get g
    · obtain ⟨g, rfl⟩ := hget
      have hmem := hwf.task?_eq_some_iff.mp ht
      have hlent : p.lends? (.resume id reply) = (p.resumeGet g reply).2.lent? := by
        simp only [lends?, answer?, resume, ht, advance, Prod.map]
        rcases p.resumeGet g reply with ⟨q, g' | c | e⟩ <;> rfl
      rw [hlent]
      refine (lends_resumeGet hp.shelved (hp.spared hmem) reply).congr (r := p) rfl
        (conns_resume ht reply) ?_
      rintro j (hj | hj)
      · exact .inl hj
      · exact .inr ⟨id, reply, g, rfl, hmem, hj⟩
    · rw [not_exists] at hget
      rw [lends?_eq_none fun c hanswer => ?_]
      · exact .none ((conns_resume ht reply).trans (conns_advance hget reply))
      · obtain ⟨g, hg, -⟩ := advance_eq_done_lent (advance_of_answer ht hanswer)
        exact hget g hg

/-- What an action that is no return does about loans: it lends what it answers a get with, and
nothing else changes. -/
theorem lends_act (hwf : p.WellFormed) (hp : p.Conserved .free p.held) {a : Action}
    (hput : a.isPut = false) : p.Lends (p.Reaches a) (p.act a) (p.lends? a) := by
  cases a with
  | start request => exact lends_start hp hput
  | resume id reply => exact lends_resume hwf hp id reply
  | turn => exact .none conns_turn
  | resumeChecker reply => exact .none (conns_resumeChecker reply)
  | setTime | takeStats | takeShardStats | abandon => exact .none rfl

theorem isLent_of_answer (hwf : p.WellFormed) (hp : p.Conserved .free p.held) {a : Action}
    (hanswer : p.answer? a = some (.lent c)) : (p.act a).isLent c = true := by
  have hlends := lends?_eq_some_iff.mpr hanswer
  rw [(lends_act hwf hp (isPut_of_lends hlends)).isLent, hlends]
  simp

theorem isLent_of_serves (hwf : p.WellFormed) (hp : p.Conserved .free p.held) {request : Request}
    {as : List Action} (hruns : p.Runs as) (hserves : p.Serves request as (.lent c)) :
    (p.after as).isLent c = true := by
  obtain ⟨bs, b, rfl, hanswer, -⟩ := hserves.exists_last
  have hbefore := invariant_conserved.after (runs_append.mp hruns).1 hwf hp
  rw [after_append]
  exact isLent_of_answer (hwf.after bs) hbefore hanswer

end Act

end Pool

end QuorumPool
