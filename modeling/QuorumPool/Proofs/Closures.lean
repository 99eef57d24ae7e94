import QuorumPool.Proofs.WellFormed

namespace QuorumPool

/-- The address of the shard that was closed, when the entry reports that. -/
def Entry.closure? : Entry → Option String
  | .event (.shardClosed address _) => some address
  | _ => none

/-- A shard that goes on as it was, closed or open, and stays empty once it is closed. -/
structure Shard.Stays (s t : Shard) : Prop where
  address : t.address = s.address
  closed : t.closed = s.closed
  empty : s.closed = true → s.idle = [] → t.idle = []

theorem Shard.Stays.refl (s : Shard) : s.Stays s := ⟨rfl, rfl, fun _ hidle => hidle⟩

theorem Shard.Stays.trans {s t u : Shard} (hst : s.Stays t) (htu : t.Stays u) : s.Stays u where
  address := htu.address.trans hst.address
  closed := htu.closed.trans hst.closed
  empty hclosed hidle := htu.empty (hst.closed.trans hclosed) (hst.empty hclosed hidle)

namespace Pool

/-- The addresses of the shards that were closed, in the order in which they were. -/
def closures (p : Pool) : List String := p.journal.reverse.filterMap Entry.closure?

/-- A change that no shutdown has a part in. -/
structure Aside (p q : Pool) : Prop where
  closed : q.closed = p.closed
  closures : q.closures = p.closures
  length : q.shards.length = p.shards.length
  shard : ∀ j, (p.shard j).Stays (q.shard j)

variable {p q r : Pool} {i : Nat}

theorem closures_note (p : Pool) (e : Event) :
    (p.note e).closures = p.closures ++ (Entry.event e).closure?.toList := by
  simp only [closures, note, List.reverse_cons, List.filterMap_append, List.filterMap_cons,
    List.filterMap_nil]
  cases (Entry.event e).closure? <;> rfl

theorem closures_ask (p : Pool) (c : Call) : (p.ask c).closures = p.closures := by
  simp [closures, ask, Entry.closure?]

namespace Aside

theorem refl (p : Pool) : p.Aside p := ⟨rfl, rfl, rfl, fun _ => .refl _⟩

theorem trans (hpq : p.Aside q) (hqr : q.Aside r) : p.Aside r where
  closed := hqr.closed.trans hpq.closed
  closures := hqr.closures.trans hpq.closures
  length := hqr.length.trans hpq.length
  shard j := (hpq.shard j).trans (hqr.shard j)

/-- A change of other parts of a pool. -/
theorem of_eq (hclosed : q.closed = p.closed) (hjournal : q.journal = p.journal)
    (hshards : q.shards = p.shards) : p.Aside q := by
  refine ⟨hclosed, by rw [Pool.closures, hjournal, Pool.closures], by rw [hshards], fun j => ?_⟩
  rw [show q.shard j = p.shard j by rw [Pool.shard, hshards, Pool.shard]]
  exact .refl _

theorem note (p : Pool) {e : Event} (he : (Entry.event e).closure? = none) : p.Aside (p.note e) :=
  ⟨rfl, by rw [closures_note, he, Option.toList_none, List.append_nil], rfl, fun _ => .refl _⟩

/-- The same, with an event written down. -/
theorem of_eq_note {e : Event} (he : (Entry.event e).closure? = none)
    (hclosed : q.closed = p.closed) (hjournal : q.journal = p.journal)
    (hshards : q.shards = p.shards) : p.Aside (q.note e) :=
  (of_eq hclosed hjournal hshards).trans (note q he)

theorem ask (p : Pool) (c : Call) : p.Aside (p.ask c) :=
  ⟨rfl, closures_ask p c, rfl, fun _ => .refl _⟩

theorem rotate (p : Pool) : p.Aside p.rotate := .of_eq rfl rfl rfl

theorem modifyShard {f : Shard → Shard} (hf : (p.shard i).Stays (f (p.shard i))) :
    p.Aside (p.modifyShard i f) := by
  refine ⟨rfl, rfl, length_shards_modifyShard, fun j => ?_⟩
  by_cases hi : i < p.shards.length
  · rw [shard_modifyShard hi]
    split
    · rename_i hij
      exact hij ▸ hf
    · exact .refl _
  · rw [modifyShard_of_length_le (Nat.le_of_not_lt hi)]
    exact .refl _

theorem count (p : Pool) (i : Nat) (g : Tally → Tally) : p.Aside (p.count i g) :=
  modifyShard ⟨rfl, rfl, fun _ hidle => hidle⟩

theorem dropIdle (p : Pool) (i : Nat) : p.Aside (p.dropIdle i) :=
  modifyShard ⟨rfl, rfl, fun _ hidle => by rw [hidle, List.tail_nil]⟩

theorem occupySlot (p : Pool) (i : Nat) : p.Aside (p.modifyShard i Shard.occupySlot) :=
  modifyShard ⟨rfl, rfl, fun _ hidle => hidle⟩

theorem releaseSlot (p : Pool) (i : Nat) : p.Aside (p.modifyShard i Shard.releaseSlot) :=
  modifyShard ⟨rfl, rfl, fun _ hidle => hidle⟩

theorem lend (p : Pool) (i : Nat) (c : ConnId) : p.Aside (p.lend i c) :=
  Aside.trans (q := p.modifyConn c _) (.of_eq rfl rfl rfl) (occupySlot _ i)

theorem offerSuspect (p : Pool) (i : Nat) : p.Aside (p.offerSuspect i) := by
  unfold Pool.offerSuspect
  split
  · exact .refl p
  split
  · exact of_eq_note rfl rfl rfl rfl
  · exact note p rfl

theorem recordOutcome (p : Pool) (i : Nat) (failed : Bool) :
    p.Aside (p.recordOutcome i failed) := by
  obtain ⟨count, heq⟩ := exists_recordOutcome_eq p i failed
  have hfails : p.Aside (p.modifyShard i fun s => { s with fails := count s.fails }) :=
    modifyShard ⟨rfl, rfl, fun _ hidle => hidle⟩
  obtain heq | heq := heq
  · exact heq ▸ hfails
  · exact heq ▸ hfails.trans (offerSuspect _ i)

theorem noteIdleClose (p : Pool) (i : Nat) (reply : Reply) : p.Aside (p.noteIdleClose i reply) := by
  cases reply with
  | ok _ => exact .refl p
  | error e => exact note p rfl

section Get

theorem discard (p : Pool) (i : Nat) (c : ConnId) : p.Aside (p.discard i c).1 := count p i _

theorem serve (p : Pool) (i : Nat) : p.Aside (p.serve i).1 := by
  unfold Pool.serve
  dsimp only
  split
  · have hdrop := dropIdle p i
    split
    · exact ((hdrop.trans (note _ rfl)).trans (count _ i _)).trans (discard _ i _)
    split
    · exact hdrop
    · exact hdrop.trans (lend _ i _)
  · split
    · exact (occupySlot p i).trans (count _ i _)
    · exact .refl p

theorem borrow (p : Pool) (i : Nat) : p.Aside (p.borrow i).1 := by
  unfold Pool.borrow
  split
  · exact .refl p
  · exact (count p i _).trans (serve _ i)

theorem adopt (p : Pool) (i : Nat) : p.Aside (p.adopt i) :=
  (recordOutcome p i false).trans (of_eq_note rfl rfl rfl rfl)

theorem failDial (p : Pool) (i : Nat) (e : PoolError) : p.Aside (p.failDial i e) :=
  (((recordOutcome p i true).trans (count _ i _)).trans (releaseSlot _ i)).trans (note _ rfl)

theorem resumeBorrow (p : Pool) (i : Nat) (b : Borrowing) (reply : Reply) :
    p.Aside (p.resumeBorrow i b reply).1 := by
  cases b with
  | discarding c => exact (noteIdleClose p i reply).trans (serve _ i)
  | validating c =>
    cases reply with
    | ok _ => exact lend p i c
    | error e => exact (note p rfl).trans (discard _ i c)
  | dialing =>
    cases reply with
    | ok _ => exact adopt p i
    | error e => exact failDial p i e

theorem passOver (p : Pool) (i attempt : Nat) (e : PoolError) : p.Aside (p.passOver i attempt e) :=
  (rotate p).trans (note _ rfl)

theorem visit (p : Pool) (start attempt left : Nat) : p.Aside (p.visit start attempt left).1 := by
  induction left generalizing p attempt with
  | zero => exact .refl p
  | succ left ih =>
    unfold Pool.visit
    dsimp only
    split
    · have hborrow := borrow p (p.visited start attempt)
      split <;> rename_i heq <;> rw [heq] at hborrow
      · exact hborrow
      · exact hborrow
      · exact (hborrow.trans (passOver _ _ _ _)).trans (ih _ _)
    · exact (rotate p).trans (ih _ _)

theorem get (p : Pool) : p.Aside p.get.1 := by
  unfold Pool.get
  split
  · exact .refl p
  · exact (rotate p).trans (visit _ _ _ _)

theorem resumeGet (p : Pool) (g : Getting) (reply : Reply) : p.Aside (p.resumeGet g reply).1 := by
  have hborrow := resumeBorrow p (p.visited g.start g.attempt) g.borrowing reply
  unfold Pool.resumeGet
  dsimp only
  split <;> rename_i heq <;> rw [heq] at hborrow
  · exact hborrow
  · exact hborrow
  · exact (hborrow.trans (passOver _ _ _ _)).trans (visit _ _ _ _)

end Get

theorem reclaim (p : Pool) (i : Nat) (c : ConnId) (broken : Bool) :
    p.Aside (p.reclaim i c broken) := by
  have hconn : p.Aside (p.modifyConn c fun conn =>
      { conn with borrowed := false, lastUsed := p.now }) := .of_eq rfl rfl rfl
  exact ((hconn.trans (recordOutcome _ i broken)).trans (count _ i _)).trans (releaseSlot _ i)

/-- A returned connection joins the queue of an open shard only. -/
theorem put (p : Pool) (c : ConnId) (broken : Bool) : p.Aside (p.put c broken).1 := by
  unfold Pool.put
  split
  · rename_i i lastUsed hconn
    have hreclaim := reclaim p i c broken
    dsimp only
    split
    · exact hreclaim.trans (count _ i _)
    · rename_i haccepts
      simp only [Bool.or_eq_true, not_or, Bool.not_eq_true, Bool.not_eq_false'] at haccepts
      split
      · refine hreclaim.trans (modifyShard ⟨rfl, rfl, fun hclosed _ => ?_⟩)
        simp [Shard.acceptsIdle, hclosed] at haccepts
      · exact ((hreclaim.trans (note _ rfl)).trans (count _ i _)).trans (count _ i _)
  · exact .refl p

section Verdict

theorem drain (p : Pool) (i drained : Nat) : p.Aside (p.drain i drained).1 := by
  unfold Pool.drain
  dsimp only
  split
  · exact (dropIdle p i).trans (count _ i _)
  · exact note p rfl

theorem available {p : Pool} (i numAvailable : Nat) (available : Bool) :
    p.Aside ({ p with numAvailable }.modifyShard i fun s => { s with available }) :=
  Aside.trans (q := { p with numAvailable }) (.of_eq rfl rfl rfl)
    (modifyShard ⟨rfl, rfl, fun _ hidle => hidle⟩)

theorem promote (p : Pool) (i : Nat) : p.Aside (p.promote i).1 := by
  unfold Pool.promote
  split
  · exact .refl p
  · exact (available i _ true).trans (note _ rfl)

theorem demote (p : Pool) (i : Nat) : p.Aside (p.demote i).1 := by
  unfold Pool.demote
  dsimp only
  split
  · exact .refl p
  split
  · exact note p rfl
  · exact ((available i _ false).trans (note _ rfl)).trans (drain _ i 0)

theorem resumeVerdict (p : Pool) (v : Verdict) (reply : Reply) :
    p.Aside (p.resumeVerdict v reply).1 := by
  cases v with
  | deciding i healthy =>
    cases healthy with
    | true => exact promote p i
    | false => exact demote p i
  | draining i c drained => exact (noteIdleClose p i reply).trans (drain _ i _)

theorem resumeCheck (p : Pool) (c : Check) (reply : Reply) : p.Aside (p.resumeCheck c reply).1 := by
  unfold Pool.resumeCheck
  split
  · exact .refl p
  · exact note p rfl
  · exact .refl p
  · exact .refl p
  · dsimp only
    split <;> split
    · exact .refl p
    · exact note p rfl
    · exact note p rfl
    · exact (note p rfl).trans (note _ rfl)

end Verdict

section Checker

theorem resumeInspection (p : Pool) (s : Inspection) (reply : Reply) :
    p.Aside (p.resumeInspection s reply).1 := by
  cases s with
  | checking i c =>
    rw [fst_resumeInspection_checking]
    exact resumeCheck p c reply
  | judging v =>
    rw [fst_resumeInspection_judging]
    exact resumeVerdict p v reply

theorem setErrand (p : Pool) (due : Duration) (w : Progress Errand Unit) :
    p.Aside (p.setErrand due w) := by
  unfold Pool.setErrand
  split
  · rename_i e
    have hset : p.Aside { p with checker := .working due e } := .of_eq rfl rfl rfl
    dsimp only
    split
    · exact hset.trans (ask _ _)
    · exact hset
  · exact .of_eq rfl rfl rfl

theorem resumeErrand (p : Pool) (due : Duration) (e : Errand) (reply : Reply) :
    p.Aside ((p.resumeErrand e reply).1.setErrand due (p.resumeErrand e reply).2) := by
  have herrand : p.Aside (p.resumeErrand e reply).1 := by
    rw [fst_resumeErrand]
    exact resumeInspection p e.inspection reply
  exact herrand.trans (setErrand _ _ _)

theorem turn (p : Pool) : p.Aside p.turn := by
  unfold Pool.turn
  split
  · exact of_eq_note rfl rfl rfl rfl
  · split
    · exact of_eq_note rfl rfl rfl rfl
    split
    · rename_i i rest _
      have htake : p.Aside ({ p with suspects := rest }.note
          (.checkingSuspect (p.shard i).address)) := of_eq_note rfl rfl rfl rfl
      exact htake.trans (setErrand _ _ _)
    · split
      · exact setErrand p _ _
      · exact .refl p
  · split
    · exact .refl p
    · exact resumeErrand p _ _ _
  · exact .refl p

theorem resumeChecker (p : Pool) (reply : Reply) : p.Aside (p.resumeChecker reply) := by
  unfold Pool.resumeChecker
  split
  · split
    · exact resumeErrand p _ _ reply
    · exact .refl p
  · exact .refl p

end Checker

/-- What a request does at once, other than a shutdown. -/
theorem begin (p : Pool) {request : Request} (hrequest : request ≠ .shutdown) :
    p.Aside (p.begin request).1 := by
  cases request with
  | get => exact get p
  | put c broken => exact put p c broken
  | strayPut | mark | check => exact .refl p
  | shutdown => exact absurd rfl hrequest

/-- What a task does in its next step, other than a shutdown. -/
theorem advance (p : Pool) {t : Task} (ht : ∀ s, t ≠ .shutdown s) (reply : Reply) :
    p.Aside (p.advance t reply).1 := by
  cases t with
  | get g => exact resumeGet p g reply
  | put c => exact .refl p
  | strayPut =>
    cases reply with
    | ok _ => exact .refl p
    | error e => exact note p rfl
  | verdict v => exact resumeVerdict p v reply
  | check c => exact resumeCheck p c reply
  | shutdown s => exact absurd rfl (ht s)

theorem askFor (p : Pool) (t : Task) : p.Aside (p.askFor t) := by
  unfold Pool.askFor
  split
  · exact ask p _
  · exact .refl p

theorem recounted (hrecounted : p.Recounted q) (hclosed : q.closed = p.closed)
    (hjournal : q.journal = p.journal) : p.Aside q := by
  refine ⟨hclosed, by rw [Pool.closures, hjournal, Pool.closures], hrecounted.length_shards,
    fun j => ?_⟩
  obtain ⟨t, ht⟩ := hrecounted.shard j
  rw [ht]
  exact ⟨rfl, rfl, fun _ hidle => hidle⟩

end Aside

end Pool

end QuorumPool
