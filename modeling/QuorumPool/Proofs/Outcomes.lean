import QuorumPool.Proofs.Chores
import QuorumPool.Proofs.Discipline

namespace QuorumPool

namespace Pool

/-- The shard that the action has an outcome for, and whether that is a failure. A dial has one when
the factory replies, and a return when it is taken. -/
def outcome? (p : Pool) : Action → Option (Nat × Bool)
  | .start (.put c broken) =>
    match p.conns[c]? with
    | some { shard := i, borrowed := true, .. } => some (i, broken)
    | _ => none
  | .resume id reply =>
    match p.call? id, reply with
    | some (.dial i _), .ok _ => some (i, false)
    | some (.dial i _), .error _ => some (i, true)
    | _, _ => none
  | _ => none

/-- A failure count with an outcome of its shard. -/
def tallied (o : Option (Nat × Bool)) (i fails : Nat) : Nat :=
  match o with
  | some (j, failed) => if j = i then if failed then fails + 1 else 0 else fails
  | none => fails

/-- The shards whose failure count reaches the threshold with the outcome. -/
def crossing (p : Pool) : Option (Nat × Bool) → List Nat
  | some (i, true) => if (p.shard i).fails + 1 = p.config.maxFails then [i] else []
  | some (_, false) | none => []

/-- Whether the suspect queue takes a shard that is offered to it. -/
def TakesSuspects (p : Pool) : Prop :=
  p.checker ≠ .stopped ∧ p.suspects.length < p.config.suspectQueueCapacity

instance (p : Pool) : Decidable p.TakesSuspects := inferInstanceAs (Decidable (_ ∧ _))

/-- Whether a shard that is offered to the suspect queue is turned away from it. -/
def TurnsAway (p : Pool) : Prop :=
  p.checker ≠ .stopped ∧ p.config.suspectQueueCapacity ≤ p.suspects.length

instance (p : Pool) : Decidable p.TurnsAway := inferInstanceAs (Decidable (_ ∧ _))

/-- The addresses of the shards that were turned away from the suspect queue, in order. -/
def turnedAway (p : Pool) : List String := p.journal.reverse.filterMap Entry.turnedAway?

/-- What an outcome is to the failure counts and to the suspect queue. -/
structure Feeds (p : Pool) (o : Option (Nat × Bool)) (q : Pool) : Prop where
  config : q.config = p.config
  checker : q.checker = p.checker
  length : q.shards.length = p.shards.length
  address : ∀ i, (q.shard i).address = (p.shard i).address
  fails : ∀ i, (q.shard i).fails = tallied o i (p.shard i).fails
  suspects : q.suspects = p.suspects ++ if p.TakesSuspects then p.crossing o else []
  turnedAway : q.turnedAway = p.turnedAway ++
    if p.TurnsAway then (p.crossing o).map fun i => (p.shard i).address else []

variable {p q r : Pool} {o : Option (Nat × Bool)} {i : Nat} {f : Shard → Shard}

theorem turnedAway_note (p : Pool) {e : Event} (he : (Entry.event e).turnedAway? = none) :
    (p.note e).turnedAway = p.turnedAway := by
  simp [turnedAway, note, he]

theorem turnedAway_ask (p : Pool) (c : Call) : (p.ask c).turnedAway = p.turnedAway := by
  simp [turnedAway, ask, Entry.turnedAway?]

/-- An offer to the suspect queue is taken, or turned away with a report; a stopped health checker
hears nothing of it. -/
theorem offerSuspect_eq (p : Pool) (i : Nat) :
    (p.offerSuspect i).config = p.config ∧ (p.offerSuspect i).checker = p.checker ∧
      (p.offerSuspect i).suspects = p.suspects ++ (if p.TakesSuspects then [i] else []) ∧
      (p.offerSuspect i).turnedAway =
        p.turnedAway ++ if p.TurnsAway then [(p.shard i).address] else [] := by
  unfold offerSuspect TakesSuspects TurnsAway
  by_cases hstopped : p.checker = .stopped
  · simp [hstopped]
  by_cases hroom : p.suspects.length < p.config.suspectQueueCapacity
  · simp [hstopped, hroom, Nat.not_le.mpr hroom, note, turnedAway, Entry.turnedAway?]
  · simp [hstopped, hroom, note, turnedAway, Entry.turnedAway?]

namespace Feeds

/-- A step that leaves alone all that outcomes are about. -/
theorem of_eq (hconfig : q.config = p.config) (hchecker : q.checker = p.checker)
    (hshards : q.shards = p.shards) (hsuspects : q.suspects = p.suspects)
    (hturned : q.turnedAway = p.turnedAway) : p.Feeds none q where
  config := hconfig
  checker := hchecker
  length := by rw [hshards]
  address i := by rw [shard, hshards, shard]
  fails i := by rw [shard, hshards, shard]; rfl
  suspects := by simp [hsuspects, crossing]
  turnedAway := by simp [hturned, crossing]

theorem refl (p : Pool) : p.Feeds none p := of_eq rfl rfl rfl rfl rfl

theorem suspects_eq (hfeeds : p.Feeds none q) : q.suspects = p.suspects := by
  simpa [crossing] using hfeeds.suspects

theorem turnedAway_eq (hfeeds : p.Feeds none q) : q.turnedAway = p.turnedAway := by
  simpa [crossing] using hfeeds.turnedAway

/-- What comes after an outcome and is none itself. -/
theorem before (hpq : p.Feeds o q) (hqr : q.Feeds none r) : p.Feeds o r where
  config := hqr.config.trans hpq.config
  checker := hqr.checker.trans hpq.checker
  length := hqr.length.trans hpq.length
  address i := (hqr.address i).trans (hpq.address i)
  fails i := (hqr.fails i).trans (hpq.fails i)
  suspects := hqr.suspects_eq.trans hpq.suspects
  turnedAway := hqr.turnedAway_eq.trans hpq.turnedAway

/-- What comes before an outcome and is none itself. -/
theorem after (hqr : q.Feeds o r) (hpq : p.Feeds none q) : p.Feeds o r := by
  have hfails (i : Nat) : (q.shard i).fails = (p.shard i).fails := hpq.fails i
  have hcrossing : q.crossing o = p.crossing o := by
    unfold crossing
    simp only [hfails, hpq.config]
  have htakes : q.TakesSuspects ↔ p.TakesSuspects := by
    simp only [TakesSuspects, hpq.checker, hpq.config, hpq.suspects_eq]
  have hturns : q.TurnsAway ↔ p.TurnsAway := by
    simp only [TurnsAway, hpq.checker, hpq.config, hpq.suspects_eq]
  refine ⟨hqr.config.trans hpq.config, hqr.checker.trans hpq.checker,
    hqr.length.trans hpq.length, fun i => (hqr.address i).trans (hpq.address i), fun i => ?_, ?_, ?_⟩
  · rw [hqr.fails, hfails]
  · simp only [hqr.suspects, hpq.suspects_eq, hcrossing, htakes]
  · simp only [hqr.turnedAway, hpq.turnedAway_eq, hcrossing, hturns, hpq.address]

theorem note (p : Pool) {e : Event} (he : (Entry.event e).turnedAway? = none) :
    p.Feeds none (p.note e) :=
  of_eq rfl rfl rfl rfl (turnedAway_note p he)

theorem modifyConn (p : Pool) (c : ConnId) (g : Conn → Conn) : p.Feeds none (p.modifyConn c g) :=
  of_eq rfl rfl rfl rfl rfl

theorem modifyShard (hfails : ∀ s, (f s).fails = s.fails)
    (haddress : ∀ s, (f s).address = s.address) : p.Feeds none (p.modifyShard i f) where
  config := rfl
  checker := rfl
  length := length_shards_modifyShard
  address := aspect_modifyShard haddress
  fails := aspect_modifyShard hfails
  suspects := by simp [Pool.modifyShard, crossing]
  turnedAway := by simp [Pool.modifyShard, Pool.turnedAway, crossing]

/-- A chore has no outcome. -/
theorem of_chore (hchore : p.Chore q) : p.Feeds none q := by
  cases hchore with
  | note he => exact note p he
  | count | occupySlot | releaseSlot | dropIdle | shut =>
    exact modifyShard (fun _ => rfl) fun _ => rfl
  | @flag _ numAvailable =>
    have hcount : p.Feeds none { p with numAvailable } := of_eq rfl rfl rfl rfl rfl
    exact hcount.before (modifyShard (fun _ => rfl) fun _ => rfl)
  | rotate | mark | adopt | stop => exact of_eq rfl rfl rfl rfl rfl

theorem of_chores (hchores : p.Chores q) : p.Feeds none q :=
  hchores.keeps refl (fun _ _ _ hpq hqr => hpq.before hqr) fun _ _ hchore => of_chore hchore

/-- An outcome of a shard is fed into its failure count. -/
theorem recordOutcome (hi : i < p.shards.length) (failed : Bool) :
    p.Feeds (some (i, failed)) (p.recordOutcome i failed) := by
  let r := p.modifyShard i fun s => { s with fails := tallied (some (i, failed)) i s.fails }
  have hfails (j : Nat) :
      (r.shard j).fails = tallied (some (i, failed)) j (p.shard j).fails := by
    rw [shard_modifyShard hi]
    by_cases hij : i = j
    · simp [hij]
    · simp [hij, tallied]
  have haddress : ∀ j, (r.shard j).address = (p.shard j).address :=
    aspect_modifyShard (g := Shard.address) fun _ => rfl
  cases failed with
  | false =>
    have hrecord : p.recordOutcome i false = r := by simp [Pool.recordOutcome, r, tallied]
    rw [hrecord]
    exact ⟨rfl, rfl, length_shards_modifyShard, haddress, hfails,
      by simp [r, Pool.modifyShard, crossing],
      by simp [r, Pool.modifyShard, Pool.turnedAway, crossing]⟩
  | true =>
    have hself : (r.shard i).fails = (p.shard i).fails + 1 := by simp [hfails, tallied]
    have hrecord : p.recordOutcome i true =
        if (p.shard i).fails + 1 = p.config.maxFails then r.offerSuspect i else r := by
      rw [← hself]
      simp [Pool.recordOutcome, r, tallied]
      rfl
    have hlength : r.shards.length = p.shards.length := length_shards_modifyShard
    rw [hrecord]
    split
    · rename_i hcrosses
      obtain ⟨hconfig, hchecker, hsuspects, hturned⟩ := offerSuspect_eq r i
      have hshard (j : Nat) : (r.offerSuspect i).shard j = r.shard j := by
        rw [shard, shards_offerSuspect, ← shard]
      refine ⟨hconfig, hchecker, by rw [shards_offerSuspect, hlength], fun j => ?_, fun j => ?_,
        ?_, ?_⟩
      · rw [hshard, haddress]
      · rw [hshard, hfails]
      · rw [hsuspects]
        simp only [crossing, hcrosses, if_true]
        rfl
      · rw [hturned, haddress]
        simp only [crossing, hcrosses, if_true]
        rfl
    · rename_i hcrosses
      refine ⟨rfl, rfl, hlength, haddress, hfails, ?_, ?_⟩
      · simp [r, Pool.modifyShard, crossing, hcrosses]
      · simp [r, Pool.modifyShard, Pool.turnedAway, crossing, hcrosses]

theorem resumeGet (hlen : 0 < p.shards.length) (g : Getting) (reply : Reply) :
    p.Feeds (g.borrowing.outcome? (p.visited g.start g.attempt) reply) (p.resumeGet g reply).1 := by
  have hi : p.visited g.start g.attempt < p.shards.length := Nat.mod_lt _ hlen
  refine before ?_ (of_chores (.resumeGet p g reply))
  cases g.borrowing with
  | discarding c | validating c => exact refl p
  | dialing => cases reply <;> exact recordOutcome hi _

section Put

theorem reclaim (hi : i < p.shards.length) (c : ConnId) (broken : Bool) :
    p.Feeds (some (i, broken)) (p.reclaim i c broken) := by
  have hconn := modifyConn p c fun conn => { conn with borrowed := false, lastUsed := p.now }
  exact (((recordOutcome (p := p.modifyConn c _) hi broken).after hconn).before
    (of_chore .count)).before (of_chore .releaseSlot)

/-- A return that is taken tells whether the connection was sound. -/
theorem put {c : ConnId} {lastUsed : Duration} (hi : i < p.shards.length)
    (hconn : p.conns[c]? = some ⟨i, true, lastUsed⟩) (broken : Bool) :
    p.Feeds (some (i, broken)) (p.put c broken).1 := by
  have hreclaim := reclaim hi c broken
  simp only [Pool.put, hconn]
  split
  · exact hreclaim.before (of_chore .count)
  split
  · exact hreclaim.before (modifyShard (fun _ => rfl) fun _ => rfl)
  · exact ((hreclaim.before (note _ rfl)).before (of_chore .count)).before (of_chore .count)

end Put

section Tasks

/-- A request that begins has an outcome if it is a return that is taken. -/
theorem begin (hwf : p.WellFormed) (request : Request) :
    p.Feeds (p.outcome? (.start request)) (p.begin request).1 := by
  cases request with
  | put c broken =>
    cases hlent : p.isLent c with
    | true =>
      obtain ⟨i, lastUsed, hconn⟩ := exists_conn_of_isLent hlent
      simp only [outcome?, hconn]
      exact put (hwf.conns _ (List.mem_of_getElem? hconn)) hconn broken
    | false =>
      have hnone : p.outcome? (.start (.put c broken)) = none := by
        unfold outcome?
        dsimp only
        split
        · rename_i hconn
          simp [isLent, hconn] at hlent
        · rfl
      rw [hnone]
      change p.Feeds none (p.put c broken).1
      rw [put_of_not_lent hlent]
      exact refl p
  | get | strayPut | mark | check | shutdown => exact of_chores (.begin (by simp))

/-- A task that goes on has an outcome if it waits for a dial. -/
theorem advance (hlen : 0 < p.shards.length) {id : TaskId} {t : Task} (ht : p.task? id = some t)
    (reply : Reply) : p.Feeds (p.outcome? (.resume id reply)) (p.advance t reply).1 := by
  have hcall : p.call? id = t.call? p := by rw [call?, ht, Option.bind_some]
  unfold outcome?
  dsimp only
  rw [hcall]
  have hothers : (∀ g, t ≠ .get g) → p.Feeds none (p.advance t reply).1 :=
    fun hget => of_chores (.advance hget reply)
  cases t with
  | get g =>
    have hget := resumeGet hlen g reply
    obtain ⟨start, attempt, b⟩ := g
    cases b <;> cases reply <;> exact hget
  | put | strayPut => exact hothers (by simp)
  | verdict v => cases v <;> exact hothers (by simp)
  | check c =>
    obtain ⟨address, attempt, checking⟩ := c
    cases checking <;> exact hothers (by simp)
  | shutdown s => cases s <;> exact hothers (by simp)

theorem askFor (p : Pool) (t : Task) : p.Feeds none (p.askFor t) := by
  unfold Pool.askFor
  split
  · exact of_eq rfl rfl rfl rfl (turnedAway_ask p _)
  · exact refl p

theorem start (hwf : p.WellFormed) (request : Request) :
    p.Feeds (p.outcome? (.start request)) (p.start request).1 := by
  have hbegin := begin hwf request
  unfold Pool.start
  split <;> rename_i heq <;> rw [heq] at hbegin
  · exact hbegin
  · refine before ?_ (askFor _ _)
    exact hbegin.before (of_eq rfl rfl rfl rfl rfl)

theorem resume (hlen : 0 < p.shards.length) (id : TaskId) (reply : Reply) :
    p.Feeds (p.outcome? (.resume id reply)) (p.resume id reply).1 := by
  cases ht : p.task? id with
  | none =>
    simp only [Pool.resume, outcome?, call?, ht]
    exact refl p
  | some t =>
    have hadvance := advance hlen ht reply
    simp only [Pool.resume, ht]
    split <;> rename_i heq <;> rw [heq] at hadvance
    · exact hadvance.before (of_eq rfl rfl rfl rfl rfl)
    · refine before ?_ (askFor _ _)
      exact hadvance.before (of_eq rfl rfl rfl rfl rfl)

end Tasks

end Feeds

section Step

/-- What the action tells of shard `i`: whether it is a failure, if it is an outcome at all. -/
def outcomes (i : Nat) (p : Pool) (a : Action) : List Bool :=
  match p.outcome? a with
  | some (j, failed) => if j = i then [failed] else []
  | none => []

/-- The shards that are offered to the suspect queue with the action. -/
def offers (p : Pool) (a : Action) : List Nat := p.crossing (p.outcome? a)

/-- A step that feeds nothing into the failure counts and nothing into the suspect queue. -/
structure Aloof (p q : Pool) : Prop where
  fails : ∀ i, (q.shard i).fails = (p.shard i).fails
  suspects : q.suspects <:+ p.suspects
  turnedAway : q.turnedAway = p.turnedAway

/-- What becomes of the failure counts and of the suspect queue in one action. -/
structure Informs (p : Pool) (a : Action) : Prop where
  fails : ∀ i, ((p.act a).shard i).fails = tallied (p.outcome? a) i (p.shard i).fails
  signals : p.signals a = if p.TakesSuspects then p.offers a else []
  turnedAway : (p.act a).turnedAway = p.turnedAway ++
    if p.TurnsAway then (p.offers a).map fun i => (p.shard i).address else []

variable {a : Action}

theorem Aloof.trans (hpq : p.Aloof q) (hqr : q.Aloof r) : p.Aloof r :=
  ⟨fun i => (hqr.fails i).trans (hpq.fails i), hqr.suspects.trans hpq.suspects,
    hqr.turnedAway.trans hpq.turnedAway⟩

theorem Feeds.aloof (hfeeds : p.Feeds none q) : p.Aloof q :=
  ⟨hfeeds.fails, hfeeds.suspects_eq ▸ List.suffix_rfl, hfeeds.turnedAway_eq⟩

theorem Aloof.setErrand (p : Pool) (due : Duration) (w : Progress Errand Unit) :
    p.Aloof (p.setErrand due w) := by
  unfold Pool.setErrand
  split
  · split
    · exact ⟨fun _ => rfl, List.suffix_rfl, turnedAway_ask _ _⟩
    · exact ⟨fun _ => rfl, List.suffix_rfl, rfl⟩
  · exact ⟨fun _ => rfl, List.suffix_rfl, rfl⟩

/-- Health checks and their verdicts are no outcomes. -/
theorem Aloof.resumeErrand (p : Pool) (due : Duration) (e : Errand) (reply : Reply) :
    p.Aloof ((p.resumeErrand e reply).1.setErrand due (p.resumeErrand e reply).2) :=
  (Feeds.of_chores (.resumeErrand p e reply)).aloof.trans (.setErrand _ due _)

theorem Aloof.turn (p : Pool) : p.Aloof p.turn := by
  have hrest : p.Aloof p := (Feeds.refl p).aloof
  unfold Pool.turn
  split
  · exact ⟨fun _ => rfl, List.suffix_rfl, turnedAway_note _ rfl⟩
  · split
    · exact ⟨fun _ => rfl, List.nil_suffix, turnedAway_note _ rfl⟩
    split
    · rename_i i rest hsuspects
      have hnext : p.Aloof ({ p with suspects := rest }.note (.checkingSuspect (p.shard i).address)) :=
        ⟨fun _ => rfl, hsuspects ▸ List.suffix_cons i rest, turnedAway_note _ rfl⟩
      exact hnext.trans (.setErrand _ _ _)
    · split
      · exact .setErrand p _ _
      · exact hrest
  · split
    · exact hrest
    · exact .resumeErrand p _ _ _
  · exact hrest

theorem Aloof.resumeChecker (p : Pool) (reply : Reply) : p.Aloof (p.resumeChecker reply) := by
  have hrest : p.Aloof p := (Feeds.refl p).aloof
  unfold Pool.resumeChecker
  split
  · split
    · exact .resumeErrand p _ _ _
    · exact hrest
  · exact hrest

theorem Aloof.informs (haloof : p.Aloof (p.act a)) (hnone : p.outcome? a = none) :
    p.Informs a := by
  refine ⟨fun i => ?_, ?_, ?_⟩
  · rw [haloof.fails, hnone]
    rfl
  · have hoffers : p.offers a = [] := by rw [offers, hnone, crossing]
    rw [hoffers, ite_self]
    apply List.drop_eq_nil_of_le
    obtain ⟨hrechecks, -⟩ | ⟨_, i, -, -, hsuspects, hrechecks⟩ := rechecks_act p a
    · rw [hrechecks]
      exact haloof.suspects.length_le
    · rw [hrechecks, hsuspects]
      exact Nat.le_refl _
  · rw [haloof.turnedAway, offers, hnone, crossing, List.map_nil, ite_self, List.append_nil]

theorem Feeds.informs (hfeeds : p.Feeds (p.outcome? a) (p.act a)) : p.Informs a := by
  refine ⟨hfeeds.fails, ?_, hfeeds.turnedAway⟩
  have hrechecks : p.rechecks a = [] := rechecks_eq_nil fun hnone => by rw [hfeeds.checker, hnone]
  rw [signals, hrechecks, hfeeds.suspects, List.length_nil, Nat.sub_zero, List.drop_left]
  rfl

/-- Only a dial that is replied to and a return that is taken have an outcome, and only the shard
that it is of is told of it. -/
theorem informs_act (hwf : p.WellFormed) (a : Action) : p.Informs a := by
  cases a with
  | start request => exact (Feeds.start hwf request).informs
  | resume id reply => exact (Feeds.resume hwf.shards id reply).informs
  | turn => exact (Aloof.turn p).informs rfl
  | resumeChecker reply => exact (Aloof.resumeChecker p reply).informs rfl
  | setTime | abandon =>
    apply Aloof.informs ?_ rfl
    exact ⟨fun _ => rfl, List.suffix_rfl, rfl⟩
  | takeStats =>
    apply Aloof.informs ?_ rfl
    refine ⟨fun i => ?_, List.suffix_rfl, rfl⟩
    obtain ⟨t, ht⟩ := (recounted_takeStats p).shard i
    change (p.takeStats.1.shard i).fails = _
    rw [ht]
    rfl
  | takeShardStats i => exact (Feeds.of_chore .count).aloof.informs rfl

end Step

end Pool

end QuorumPool
