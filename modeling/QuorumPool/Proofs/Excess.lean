import QuorumPool.Proofs.Borrowing
import QuorumPool.Proofs.Drains
import QuorumPool.Proofs.Totals

namespace QuorumPool

def Shard.excess (s : Shard) : Int := s.tally.gets - s.tally.dials

/-- Whether a get that waits at a shard has not dialed there. -/
def Borrowing.seeks : Borrowing → Bool
  | discarding _ | validating _ => true
  | dialing => false

/-- Whether a get waits at shard `i`, in a pool of `n` shards, and has not dialed there. -/
def Getting.seeks (n i : Nat) (g : Getting) : Bool :=
  decide ((g.start + g.attempt) % n = i) && g.borrowing.seeks

def Task.seeks (n i : Nat) : Task → Bool
  | get g => g.seeks n i
  | _ => false

def Progress.seeks {σ α : Type} (f : σ → Bool) : Progress σ α → Bool
  | waits s => f s
  | done _ => false

/-- Shard `j`, if a get was refused there. -/
def Progress.refusal {σ : Type} (j : Nat) : Progress σ (Except PoolError ConnId) → List Nat
  | done (.error .poolExhausted) => [j]
  | _ => []

namespace Pool

/-- How many gets wait at shard `i` that have not dialed there. -/
def seeking (p : Pool) (i : Nat) : Nat := p.tasks.countP (·.2.seeks p.shards.length i)

/-- The shards that refuse a get on its visits from attempt number `attempt` on: they have no
connection idle and no room for a dial. -/
def refusedOnVisits (p : Pool) (start attempt : Nat) : (left : Nat) → List Nat
  | 0 => []
  | left + 1 =>
    let j := p.visited start attempt
    if (p.shard j).available then
      match p.borrow j with
      | (q, .done (.error e)) =>
        (p.borrow j).2.refusal j ++ (q.passOver j attempt e).refusedOnVisits start (attempt + 1) left
      | _ => []
    else p.rotate.refusedOnVisits start (attempt + 1) left

/-- The shards that refuse a get in its first step. -/
def refusedOnGet (p : Pool) : List Nat :=
  if p.closed then [] else p.rotate.refusedOnVisits p.rotation 0 p.maxRetry

/-- Shard `j`, if it refuses a get that goes on there. A dial that fails is no refusal. -/
def refusedThere (p : Pool) (j : Nat) (b : Borrowing) (reply : Reply) : List Nat :=
  if b.seeks then (p.resumeBorrow j b reply).2.refusal j else []

/-- The shards that refuse a get when it goes on. -/
def refusedOnResume (p : Pool) (g : Getting) (reply : Reply) : List Nat :=
  let j := p.visited g.start g.attempt
  match p.resumeBorrow j g.borrowing reply with
  | (q, .done (.error e)) =>
    p.refusedThere j g.borrowing reply ++
      (q.passOver j g.attempt e).refusedOnVisits g.start (g.attempt + 1)
        (q.maxRetry - (g.attempt + 1))
  | _ => []

/-- The shards that refuse a get with the action, one entry for each refusal. -/
def refusals (p : Pool) : Action → List Nat
  | .start .get => p.refusedOnGet
  | .resume id reply =>
    match p.task? id with
    | some (.get g) => p.refusedOnResume g reply
    | _ => []
  | _ => []

/-- The connection that is lent, if the pool has it as one of shard `i`. -/
def known (p : Pool) (i : Nat) (lent : Option ConnId) : List ConnId :=
  (lent.filter fun c => p.home c = some i).toList

/-- The connection that the action lends to a get without a dial of shard `i`: the shard had it
before. -/
def reuses (i : Nat) (p : Pool) (a : Action) : List ConnId := p.known i (p.lends? a)

/-- What a get has come to at shard `i`: it seeks a connection there, it is lent one that the shard
had, or it was refused. -/
def gain (p : Pool) (i : Nat) (seeks : Bool) (lent : Option ConnId) (refused : List Nat) : Int :=
  seeks.toNat + (p.known i lent).length + refused.count i

/-- Two pools in which the gets of every shard are as far ahead of its dials. -/
def Level (p q : Pool) : Prop := ∀ i, (q.shard i).excess = (p.shard i).excess

variable {p q r : Pool} {i j : Nat} {c : ConnId} {f : Shard → Shard}

namespace Level

theorem refl (p : Pool) : p.Level p := fun _ => rfl

theorem trans (hpq : p.Level q) (hqr : q.Level r) : p.Level r := fun i =>
  (hqr i).trans (hpq i)

theorem of_shards (hshards : q.shards = p.shards) : p.Level q := fun i => by
  rw [shard, hshards, shard]

theorem modifyShard (p : Pool) (j : Nat) (hf : ∀ s, (f s).excess = s.excess) :
    p.Level (p.modifyShard j f) :=
  aspect_modifyShard hf

theorem count (p : Pool) (j : Nat) {t : Tally → Tally} (hgets : ∀ u, (t u).gets = u.gets)
    (hdials : ∀ u, (t u).dials = u.dials) : p.Level (p.count j t) := by
  refine modifyShard p j fun s => ?_
  rw [Shard.excess, Shard.count, hgets, hdials, Shard.excess]

theorem countClose (p : Pool) (j : Nat) : p.Level (p.count j Tally.countClose) :=
  count p j (fun _ => rfl) fun _ => rfl

theorem countEviction (p : Pool) (j : Nat) : p.Level (p.count j Tally.countEviction) :=
  count p j (fun _ => rfl) fun _ => rfl

theorem dropIdle (p : Pool) (j : Nat) : p.Level (p.dropIdle j) := modifyShard p j fun _ => rfl

theorem note (p : Pool) (e : Event) : p.Level (p.note e) := of_shards rfl

theorem noteIdleClose (p : Pool) (j : Nat) (reply : Reply) : p.Level (p.noteIdleClose j reply) := by
  cases reply with
  | ok _ => exact refl p
  | error e => exact note p _

theorem recordOutcome (p : Pool) (j : Nat) (failed : Bool) :
    p.Level (p.recordOutcome j failed) :=
  aspect_recordOutcome (g := Shard.excess) (fun _ _ => rfl) j failed

theorem drop (p : Pool) (j : Nat) : p.Level ((p.dropIdle j).count j Tally.countClose) :=
  (dropIdle p j).trans (countClose _ j)

section Others

theorem put (p : Pool) (c : ConnId) (broken : Bool) : p.Level (p.put c broken).1 := by
  have hreclaim (j : Nat) : p.Level (p.reclaim j c broken) := by
    let q := p.modifyConn c fun conn => { conn with borrowed := false, lastUsed := p.now }
    have hq : p.Level q := of_shards rfl
    have hrecord := hq.trans (recordOutcome q j broken)
    have hcount := hrecord.trans (count _ j (t := (·.countPut broken)) (fun _ => rfl) fun _ => rfl)
    exact hcount.trans (modifyShard _ j fun _ => rfl)
  unfold Pool.put
  split
  · dsimp only
    split
    · exact (hreclaim _).trans (countClose _ _)
    split
    · exact (hreclaim _).trans (modifyShard _ _ fun _ => rfl)
    · exact (((hreclaim _).trans (note _ _)).trans (countEviction _ _)).trans (countClose _ _)
  · exact refl p

theorem drain (p : Pool) (j drained : Nat) : p.Level (p.drain j drained).1 := by
  unfold Pool.drain
  dsimp only
  split
  · exact drop p j
  · exact note p _

theorem flag (p : Pool) (j numAvailable : Nat) (available : Bool) :
    p.Level ({ p with numAvailable }.modifyShard j fun s => { s with available }) :=
  trans (q := { p with numAvailable }) (of_shards rfl) (modifyShard _ j fun _ => rfl)

theorem resumeVerdict (p : Pool) (v : Verdict) (reply : Reply) :
    p.Level (p.resumeVerdict v reply).1 := by
  cases v with
  | deciding j healthy =>
    cases healthy with
    | true =>
      simp only [Pool.resumeVerdict, promote]
      split
      · exact refl p
      · exact (flag p j _ true).trans (note _ _)
    | false =>
      simp only [Pool.resumeVerdict, demote]
      split
      · exact refl p
      split
      · exact note p _
      · exact ((flag p j _ false).trans (note _ _)).trans (drain _ j 0)
  | draining j c drained => exact (noteIdleClose p j reply).trans (drain _ j _)

theorem resumeCheck (p : Pool) (c : Check) (reply : Reply) :
    p.Level (p.resumeCheck c reply).1 := by
  obtain ⟨journal, hcheck⟩ := exists_resumeCheck_eq p c reply
  rw [hcheck]
  exact of_shards rfl

theorem resumeErrand (p : Pool) (e : Errand) (due : Duration) (reply : Reply) :
    p.Level ((p.resumeErrand e reply).1.setErrand due (p.resumeErrand e reply).2) := by
  refine trans ?_ (of_shards (shards_setErrand _ due _))
  rw [fst_resumeErrand]
  cases e.inspection with
  | checking j c =>
    rw [fst_resumeInspection_checking]
    exact resumeCheck p c reply
  | judging v =>
    rw [fst_resumeInspection_judging]
    exact resumeVerdict p v reply

theorem turn (p : Pool) : p.Level p.turn := by
  obtain ⟨due, e, -, hturn⟩ | ⟨hshards, -⟩ := turn_cases (i := 0) p
  · rw [hturn]
    exact resumeErrand p e due (.ok ())
  · exact of_shards hshards

theorem resumeChecker (p : Pool) (reply : Reply) : p.Level (p.resumeChecker reply) := by
  unfold Pool.resumeChecker
  split
  · split
    · exact resumeErrand p _ _ _
    · exact refl p
  · exact refl p

theorem closeLast (p : Pool) (left : Nat) : p.Level (p.closeLast left).1 := by
  induction left generalizing p with
  | zero => exact note p _
  | succ left ih =>
    have hshut : p.Level (p.modifyShard (p.shards.length - (left + 1))
        fun s => { s with closed := true }) := modifyShard p _ fun _ => rfl
    unfold Pool.closeLast
    dsimp only
    split
    · exact hshut.trans (drop _ _)
    · exact (hshut.trans (note _ _)).trans (ih _)

theorem closeOn (p : Pool) (j drained : Nat) : p.Level (p.closeOn j drained).1 := by
  unfold Pool.closeOn
  split
  · exact drop p j
  · exact (note p _).trans (closeLast _ _)

theorem enterShutdown (p : Pool) : p.Level p.enterShutdown.1 := by
  unfold Pool.enterShutdown
  split <;> exact of_shards rfl

theorem resumeShutdown (p : Pool) (s : Closing) (reply : Reply) :
    p.Level (p.resumeShutdown s reply).1 := by
  cases s with
  | queued =>
    simp only [Pool.resumeShutdown]
    split
    · exact refl p
    · exact enterShutdown p
  | joining =>
    simp only [Pool.resumeShutdown]
    split
    · exact closeLast p _
    · exact refl p
  | draining j c drained => exact (noteIdleClose p j reply).trans (closeOn _ j _)

/-- Only gets are counted as such, and only they dial. -/
theorem begin {request : Request} (hget : request ≠ .get) : p.Level (p.begin request).1 := by
  cases request with
  | get => exact absurd rfl hget
  | put c broken => exact put p c broken
  | shutdown =>
    change p.Level p.shutdown.1
    unfold Pool.shutdown
    split
    · exact refl p
    · exact enterShutdown p
  | strayPut | mark | check => exact refl p

theorem advance {t : Task} (ht : ∀ g, t ≠ .get g) (reply : Reply) :
    p.Level (p.advance t reply).1 := by
  cases t with
  | get g => exact absurd rfl (ht g)
  | put c => exact refl p
  | strayPut => cases reply <;> exact of_shards rfl
  | verdict v => exact resumeVerdict p v reply
  | check c => exact resumeCheck p c reply
  | shutdown s => exact resumeShutdown p s reply

end Others

end Level

section Get

theorem known_some (i : Nat) (c : ConnId) :
    (p.known i (some c)).length = if p.home c = some i then 1 else 0 := by
  rw [known, Option.filter_some]
  split <;> simp_all

theorem gain_congr (hconns : q.conns = p.conns) : q.gain i = p.gain i := by
  have hhome : q.home = p.home := by
    funext c
    rw [home, hconns, home]
  funext seeks lent refused
  simp only [gain, known, hhome]

theorem excess_countGet (hi : i < p.shards.length) (j : Nat) :
    ((p.count j Tally.countGet).shard i).excess =
      (p.shard i).excess + if j = i then 1 else 0 := by
  rw [count, shard_modifyShard_of_lt hi]
  split
  · simp only [Shard.excess, Shard.count, Tally.countGet]
    omega
  · simp

theorem excess_countDial (hi : i < p.shards.length) (j : Nat) :
    (((p.modifyShard j Shard.occupySlot).count j Tally.countDial).shard i).excess +
      (if j = i then 1 else 0) = (p.shard i).excess := by
  rw [count, shard_modifyShard_of_lt (by simpa using hi), shard_modifyShard_of_lt hi]
  split
  · simp only [Shard.excess, Shard.count, Shard.occupySlot, Tally.countDial]
    omega
  · simp

/-- A get that takes what shard `j` has for it dials, or comes to one of the other ends there. -/
theorem excess_serve (hp : p.Shelved) (hi : i < p.shards.length) (j : Nat) :
    ((p.serve j).1.shard i).excess + (if j = i then 1 else 0) =
      (p.shard i).excess + p.gain i ((p.serve j).2.seeks fun b => decide (j = i) && b.seeks)
        (p.serve j).2.lent? ((p.serve j).2.refusal j) := by
  unfold serve
  dsimp only
  split
  · rename_i c rest hqueue
    have hhome : p.home c = some j := (hp j c (hqueue ▸ List.mem_cons_self)).1
    have hdrop := Level.dropIdle p j
    split
    · have hlevel := ((hdrop.trans (.note _ (.staleEvicted (p.shard j).address))).trans
        (.countEviction _ j)).trans (.countClose _ j)
      rw [discard, hlevel i]
      by_cases hji : j = i <;>
        simp [gain, known, Progress.seeks, Progress.lent?, Progress.refusal, Borrowing.seeks, hji]
    split
    · rw [hdrop i]
      by_cases hji : j = i <;>
        simp [gain, known, Progress.seeks, Progress.lent?, Progress.refusal, Borrowing.seeks, hji]
    · have hlend : (p.dropIdle j).Level ((p.dropIdle j).lend j c) :=
        Level.modifyShard ((p.dropIdle j).modifyConn c _) j fun _ => rfl
      rw [(hdrop.trans hlend) i]
      simp [gain, known_some, Progress.seeks, Progress.lent?, Progress.refusal, hhome]
  · split
    · have hdial := excess_countDial hi j
      rw [hdial]
      simp [gain, known, Progress.seeks, Progress.lent?, Progress.refusal, Borrowing.seeks]
    · simp [gain, known, Progress.seeks, Progress.lent?, Progress.refusal, List.count_singleton]

/-- The get is counted, and there is just one of these ends to what it comes to at the shard. -/
theorem excess_borrow (hp : p.Shelved) (hi : i < p.shards.length) (j : Nat) :
    ((p.borrow j).1.shard i).excess =
      (p.shard i).excess + p.gain i ((p.borrow j).2.seeks fun b => decide (j = i) && b.seeks)
        (p.borrow j).2.lent? ((p.borrow j).2.refusal j) := by
  unfold borrow
  split
  · simp [gain, known, Progress.seeks, Progress.lent?, Progress.refusal]
  · have hcount : p.Twin (p.count j Tally.countGet) := .count
    have hserve := excess_serve (hcount.peer.shelved hp) (hcount.length ▸ hi) j
    rw [excess_countGet hi, gain_congr hcount.conns] at hserve
    omega

theorem gain_append (p : Pool) (i : Nat) (seeks : Bool) (lent : Option ConnId) (l m : List Nat) :
    p.gain i seeks lent (l ++ m) = p.gain i false none l + p.gain i seeks lent m := by
  simp only [gain, known, Option.filter_none, Option.toList_none, List.length_nil, Bool.toNat_false,
    List.count_append]
  omega

theorem excess_visit (hp : p.Shelved) (hi : i < p.shards.length) (start attempt left : Nat) :
    ((p.visit start attempt left).1.shard i).excess =
      (p.shard i).excess +
        p.gain i ((p.visit start attempt left).2.seeks (Getting.seeks p.shards.length i))
          (p.visit start attempt left).2.lent? (p.refusedOnVisits start attempt left) := by
  induction left generalizing p attempt with
  | zero => simp [visit, refusedOnVisits, gain, known, Progress.seeks, Progress.lent?]
  | succ left ih =>
    unfold visit refusedOnVisits
    dsimp only
    split
    · have hborrow := excess_borrow hp hi (p.visited start attempt)
      rcases heq : p.borrow (p.visited start attempt) with ⟨q, s | e | c⟩ <;> rw [heq] at hborrow
      · exact hborrow
      · have htwin : p.Twin (q.passOver (p.visited start attempt) attempt e) :=
          (borrow_eq_error heq).trans (.passOver _ _ _)
        have hvisit := ih (htwin.peer.shelved hp) (htwin.length ▸ hi) (attempt + 1)
        have hlevel : q.Level (q.passOver (p.visited start attempt) attempt e) := .of_shards rfl
        rw [hlevel i, hborrow, gain_congr htwin.conns, htwin.length] at hvisit
        rw [gain_append, ← Int.add_assoc]
        exact hvisit
      · exact hborrow
    · exact ih (p := p.rotate) hp hi (attempt + 1)

theorem excess_get (hp : p.Shelved) (hi : i < p.shards.length) :
    (p.get.1.shard i).excess = (p.shard i).excess +
      p.gain i (p.get.2.seeks (Getting.seeks p.shards.length i)) p.get.2.lent? p.refusedOnGet := by
  unfold get refusedOnGet
  split
  · simp [gain, known, Progress.seeks, Progress.lent?]
  · exact excess_visit (p := p.rotate) hp hi _ _ _

/-- A get that goes on at shard `j` settles what it came for if it has not dialed there. -/
theorem excess_resumeBorrow {b : Borrowing} (hp : p.Shelved) (hb : p.Spared j b)
    (hi : i < p.shards.length) (reply : Reply) :
    ((p.resumeBorrow j b reply).1.shard i).excess + (decide (j = i) && b.seeks).toNat =
      (p.shard i).excess +
        p.gain i ((p.resumeBorrow j b reply).2.seeks fun b => decide (j = i) && b.seeks)
          (p.resumeBorrow j b reply).2.lent? (p.refusedThere j b reply) := by
  unfold refusedThere
  cases b with
  | discarding c =>
    have hnote : p.Twin (p.noteIdleClose j reply) := .noteIdleClose j reply
    have hserve := excess_serve (hnote.peer.shelved hp) (hnote.length ▸ hi) j
    rw [Level.noteIdleClose p j reply i, gain_congr hnote.conns] at hserve
    have hseeks : ((decide (j = i) && (Borrowing.discarding c).seeks).toNat : Int) =
        if j = i then 1 else 0 := by
      by_cases hji : j = i <;> simp [Borrowing.seeks, hji]
    rw [hseeks]
    exact hserve
  | validating c =>
    cases reply with
    | ok _ =>
      have hlend : p.Level (p.lend j c) := Level.modifyShard (p.modifyConn c _) j fun _ => rfl
      simp only [resumeBorrow, hlend i]
      by_cases hji : j = i <;>
        simp [gain, known_some, (hb c rfl).1, Progress.seeks, Progress.lent?, Progress.refusal,
          Borrowing.seeks, hji]
    | error e =>
      have hdiscard : p.Level ((p.note (.validationFailed (p.shard j).address e)).count j
          Tally.countClose) := (Level.note _ _).trans (.countClose _ j)
      simp only [resumeBorrow, discard, hdiscard i]
      by_cases hji : j = i <;>
        simp [gain, known, Progress.seeks, Progress.lent?, Progress.refusal, Borrowing.seeks, hji]
  | dialing =>
    cases reply with
    | ok _ =>
      have hadopt : p.Level (p.adopt j) := (Level.recordOutcome p j false).trans (.of_shards rfl)
      simp [resumeBorrow, hadopt i, gain, known_some, home, Progress.seeks, Progress.lent?,
        Borrowing.seeks]
    | error e =>
      have hrecord := (Level.recordOutcome p j true).trans
        (.count _ j (t := Tally.countDialError) (fun _ => rfl) fun _ => rfl)
      have hrelease : p.Level (((p.recordOutcome j true).count j Tally.countDialError).modifyShard j
          Shard.releaseSlot) := hrecord.trans (.modifyShard _ j fun _ => rfl)
      have hfail : p.Level (p.failDial j e) := hrelease.trans (.of_shards rfl)
      simp [resumeBorrow, hfail i, gain, known, Progress.seeks, Progress.lent?, Borrowing.seeks]

theorem excess_resumeGet {g : Getting} (hp : p.Shelved)
    (hg : p.Spared (p.visited g.start g.attempt) g.borrowing) (hi : i < p.shards.length)
    (reply : Reply) :
    ((p.resumeGet g reply).1.shard i).excess + (g.seeks p.shards.length i).toNat =
      (p.shard i).excess +
        p.gain i ((p.resumeGet g reply).2.seeks (Getting.seeks p.shards.length i))
          (p.resumeGet g reply).2.lent? (p.refusedOnResume g reply) := by
  obtain ⟨start, attempt, b⟩ := g
  have hborrow := excess_resumeBorrow hp hg hi reply
  unfold resumeGet refusedOnResume
  dsimp only at hborrow ⊢
  have hnone (hw : ∀ e, (p.resumeBorrow (p.visited start attempt) b reply).2 ≠ .done (.error e)) :
      p.refusedThere (p.visited start attempt) b reply = [] := by
    unfold refusedThere Progress.refusal
    split
    · split
      · exact absurd ‹_› (hw _)
      · rfl
    · rfl
  rcases heq : p.resumeBorrow (p.visited start attempt) b reply with ⟨q, s | e | c⟩ <;>
    rw [heq] at hborrow hnone
  · rw [hnone nofun] at hborrow
    exact hborrow
  · have hpeer : p.Peer (q.passOver (p.visited start attempt) attempt e) :=
      (resumeBorrow_eq_error heq).trans (Twin.passOver ..).peer
    have hvisit := excess_visit (hpeer.shelved hp) (hpeer.length ▸ hi) start (attempt + 1)
      (q.maxRetry - (attempt + 1))
    have hlevel : q.Level (q.passOver (p.visited start attempt) attempt e) := .of_shards rfl
    rw [hlevel i, gain_congr hpeer.conns, hpeer.length] at hvisit
    have hseeks : (Getting.seeks p.shards.length i ⟨start, attempt, b⟩) =
        (decide (p.visited start attempt = i) && b.seeks) := rfl
    rw [gain_append, hseeks]
    simp only [Progress.seeks, Progress.lent?] at hborrow hvisit ⊢
    omega
  · rw [hnone nofun] at hborrow
    exact hborrow

end Get

section Act

variable {a : Action} {as : List Action}

theorem seeking_eq (htasks : q.tasks = p.tasks) (hlen : q.shards.length = p.shards.length) (i : Nat) :
    q.seeking i = p.seeking i := by
  rw [seeking, htasks, hlen, seeking]

private theorem seeking_start (hwf : p.WellFormed) (request : Request) (i : Nat) :
    (p.start request).1.seeking i =
      p.seeking i + ((p.begin request).2.seeks (Task.seeks p.shards.length i)).toNat := by
  have hmoves := (leads_begin hwf request).moves
  have htasks := hmoves.tasks_eq
  have hlen := hmoves.length_shards
  unfold start
  rcases hbegin : p.begin request with ⟨q, t | a⟩ <;> rw [hbegin] at htasks hlen
  · dsimp only at htasks hlen ⊢
    simp only [seeking, tasks_askFor, shards_askFor, htasks, hlen, List.countP_append,
      List.countP_singleton, Progress.seeks]
    cases t.seeks p.shards.length i <;> rfl
  · exact (seeking_eq htasks hlen i).trans (Nat.add_zero _).symm

private theorem seeking_resume (hwf : p.WellFormed) {id : TaskId} {t : Task}
    (ht : p.task? id = some t) (reply : Reply) (i : Nat) :
    (p.resume id reply).1.seeking i + (t.seeks p.shards.length i).toNat =
      p.seeking i + ((p.advance t reply).2.seeks (Task.seeks p.shards.length i)).toNat := by
  obtain ⟨pre, post, hsplit, hother⟩ := hwf.exists_tasks_eq ht
  have hverdict : ∀ v, t = .verdict v → v.shard < p.shards.length := by
    rintro v rfl
    exact hwf.verdicts id v (hsplit ▸ by simp)
  have hmoves := (leads_advance hwf.shards hverdict reply).moves
  have htasks := hmoves.tasks_eq
  have hlen := hmoves.length_shards
  have hcount (u : Task) : (pre ++ (id, u) :: post).countP (·.2.seeks p.shards.length i) =
      (pre ++ post).countP (·.2.seeks p.shards.length i) + (u.seeks p.shards.length i).toNat := by
    simp only [List.countP_append, List.countP_cons]
    cases u.seeks p.shards.length i <;> simp; omega
  simp only [resume, ht]
  rcases hadvance : p.advance t reply with ⟨q, t' | a⟩ <;> rw [hadvance] at htasks hlen
  · dsimp only at htasks hlen ⊢
    simp only [seeking, tasks_askFor, shards_askFor, htasks, hlen, hsplit, map_tasks hother, hcount,
      Progress.seeks]
    omega
  · dsimp only at htasks hlen ⊢
    simp only [seeking, htasks, hlen, hsplit, filter_tasks hother, hcount, Progress.seeks,
      Bool.toNat_false, Nat.add_zero]

/-- What holds of the excess of shard `i`, beside the gets that seek a connection there, once `won`
more of its gets have come to an end without a dial. -/
def Grown (i : Nat) (p q : Pool) (won : Int) : Prop :=
  (q.shard i).excess + p.seeking i = (p.shard i).excess + q.seeking i + won

theorem Level.grown (hlevel : p.Level q) (hseeking : q.seeking i = p.seeking i) :
    Grown i p q 0 := by
  rw [Grown, hlevel i, hseeking]
  omega

theorem seeks_eq_false {w : Progress Task Answer} (hw : ∀ g, w ≠ .waits (.get g)) (n i : Nat) :
    w.seeks (Task.seeks n i) = false := by
  cases w with
  | waits t =>
    cases t with
    | get g => exact absurd rfl (hw g)
    | _ => rfl
  | done _ => rfl

theorem lends?_start_get (p : Pool) : p.lends? (.start .get) = p.get.2.lent? := by
  simp only [lends?, answer?, start, begin, Prod.map, id]
  rcases p.get with ⟨q, g | e | c⟩ <;> rfl

theorem grown_start (hwf : p.WellFormed) (hp : p.Conserved .free p.held)
    (hi : i < p.shards.length) (request : Request) :
    Grown i p (p.start request).1
      ((reuses i p (.start request)).length + (p.refusals (.start request)).count i) := by
  obtain ⟨_, _, _, hstart⟩ := exists_start_eq p request
  have hshards : (p.start request).1.shards = (p.begin request).1.shards := by rw [hstart]
  have hseeking := seeking_start hwf request i
  have hlevel : (p.begin request).1.Level (p.start request).1 := .of_shards hshards
  by_cases hget : request = .get
  · subst hget
    have hexcess := excess_get hp.shelved hi
    have hbegin : (p.begin .get).1 = p.get.1 := rfl
    have hseeks : (p.begin .get).2.seeks (Task.seeks p.shards.length i) =
        p.get.2.seeks (Getting.seeks p.shards.length i) := by
      simp only [begin, Prod.map]
      rcases p.get with ⟨q, g | a⟩ <;> rfl
    rw [hseeks] at hseeking
    rw [Grown, hlevel i, hbegin, hexcess, hseeking, reuses, lends?_start_get, refusals, gain]
    omega
  · have hnone : (p.begin request).2.seeks (Task.seeks p.shards.length i) = false :=
      seeks_eq_false (fun g hg => hget (begin_eq_waits_get hg).1) _ _
    have hlent : p.lends? (.start request) = none :=
      lends?_eq_none fun c hc => hget (begin_eq_done_lent (answer?_start_eq_some_iff.mp hc)).1
    have hrefusals : p.refusals (.start request) = [] := by
      cases request with
      | get => exact absurd rfl hget
      | _ => rfl
    rw [hnone] at hseeking
    rw [reuses, hlent, hrefusals]
    exact ((Level.begin hget).trans hlevel).grown hseeking

theorem grown_resume (hwf : p.WellFormed) (hp : p.Conserved .free p.held)
    (hi : i < p.shards.length) (id : TaskId) (reply : Reply) :
    Grown i p (p.resume id reply).1
      ((reuses i p (.resume id reply)).length + (p.refusals (.resume id reply)).count i) := by
  cases ht : p.task? id with
  | none =>
    have hresume : p.resume id reply = (p, none) := by simp only [resume, ht]
    have hlent : p.lends? (.resume id reply) = none := by rw [lends?, answer?, hresume]; rfl
    have hrefusals : p.refusals (.resume id reply) = [] := by simp only [refusals, ht]
    rw [reuses, hlent, hrefusals, hresume]
    exact (Level.refl p).grown rfl
  | some t =>
    have hlevel : (p.advance t reply).1.Level (p.resume id reply).1 :=
      .of_shards (shards_resume ht reply)
    have hseeking := seeking_resume hwf ht reply i
    by_cases hget : ∃ g, t = .get g
    · obtain ⟨g, rfl⟩ := hget
      have hexcess := excess_resumeGet hp.shelved (hp.spared (hwf.task?_eq_some_iff.mp ht)) hi reply
      have hadvance : (p.advance (.get g) reply).1 = (p.resumeGet g reply).1 := rfl
      have hseeks : (p.advance (.get g) reply).2.seeks (Task.seeks p.shards.length i) =
          (p.resumeGet g reply).2.seeks (Getting.seeks p.shards.length i) := by
        simp only [advance, Prod.map]
        rcases p.resumeGet g reply with ⟨q, g' | a⟩ <;> rfl
      have hlent : p.lends? (.resume id reply) = (p.resumeGet g reply).2.lent? := by
        simp only [lends?, answer?, resume, ht, advance, Prod.map]
        rcases p.resumeGet g reply with ⟨q, g' | e | c⟩ <;> rfl
      have hrefusals : p.refusals (.resume id reply) = p.refusedOnResume g reply := by
        simp only [refusals, ht]
      have htask : (Task.get g).seeks p.shards.length i = g.seeks p.shards.length i := rfl
      rw [hseeks, htask] at hseeking
      rw [gain] at hexcess
      rw [Grown, hlevel i, hadvance, reuses, hlent, hrefusals]
      omega
    · rw [not_exists] at hget
      have hnone : (p.advance t reply).2.seeks (Task.seeks p.shards.length i) = false := by
        refine seeks_eq_false (fun g hg => ?_) _ _
        obtain ⟨g', hg', -⟩ := advance_eq_waits_get hg
        exact hget g' hg'
      have hlent : p.lends? (.resume id reply) = none := by
        refine lends?_eq_none fun c hc => ?_
        obtain ⟨g, hg, -⟩ := advance_eq_done_lent (advance_of_answer ht hc)
        exact hget g hg
      have htask : t.seeks p.shards.length i = false ∧ p.refusals (.resume id reply) = [] := by
        simp only [refusals, ht]
        cases t with
        | get g => exact absurd rfl (hget g)
        | _ => exact ⟨rfl, rfl⟩
      rw [hnone, htask.1] at hseeking
      rw [reuses, hlent, htask.2]
      exact ((Level.advance hget reply).trans hlevel).grown hseeking

/-- An action that takes no snapshot of the shard adds to its excess what gets win by it. -/
theorem grown_act (hwf : p.WellFormed) (hp : p.Conserved .free p.held) (hi : i < p.shards.length)
    (hsnapshots : snapshots i p a = []) :
    Grown i p (p.act a) ((reuses i p a).length + (p.refusals a).count i) := by
  cases a with
  | start request => exact grown_start hwf hp hi request
  | resume id reply => exact grown_resume hwf hp hi id reply
  | turn =>
    have hlen := (fixed_act (a := .turn) trivial hwf).2
    exact (Level.turn p).grown (seeking_eq (tasksKept_turn hwf).1 hlen i)
  | resumeChecker reply =>
    have hlen := (fixed_act (a := .resumeChecker reply) trivial hwf).2
    exact (Level.resumeChecker p reply).grown (seeking_eq (tasksKept_resumeChecker hwf reply).1 hlen i)
  | setTime | abandon => exact (Level.of_shards rfl).grown rfl
  | takeStats => simp [snapshots, takeStats, hi] at hsnapshots
  | takeShardStats j =>
    have hji : j ≠ i := by
      rintro rfl
      simp [snapshots, takeShardStats, hi] at hsnapshots
    have hshard : (p.takeShardStats j).1.shard i = p.shard i := shard_modifyShard_of_ne hji
    have hseeking : (p.takeShardStats j).1.seeking i = p.seeking i :=
      seeking_eq (p := p) (q := p.count j fun _ => {}) rfl length_shards_modifyShard i
    simp [Pool.act, Grown, hshard, hseeking, reuses, lends?, answer?, known, refusals]

/-- Through a run in which no snapshot of the shard is taken, its gets get ahead of its dials by those
that are lent a connection of the shard without a dial and by those that are refused. -/
theorem grown_after (hruns : p.Runs as) (hwf : p.WellFormed) (hp : p.Conserved .free p.held)
    (hi : i < p.shards.length) (hsnapshots : along (snapshots i) p as = []) :
    Grown i p (p.after as) ((along (reuses i) p as).length + (along refusals p as).count i) := by
  induction as generalizing p with
  | nil => exact (Int.add_zero _).symm
  | cons a as ih =>
    obtain ⟨hadmits, hon⟩ := hruns
    obtain ⟨hnow, hlater⟩ := List.append_eq_nil_iff.mp hsnapshots
    have hlen := (fixed_act hadmits hwf).2
    have hstep := grown_act hwf hp hi hnow
    have hrest := ih hon (hwf.act a) (invariant_conserved.effect (effect_act hwf hadmits) hp)
      (hlen ▸ hi) hlater
    simp only [Grown, along, Pool.after, List.length_append, List.count_append] at hstep hrest ⊢
    omega

end Act

end Pool

end QuorumPool
