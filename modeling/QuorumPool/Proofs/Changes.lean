import QuorumPool.Proofs.Conservation
import QuorumPool.Proofs.Verdicts

namespace QuorumPool

/-- What a shard counts, apart from the gets that come to it. -/
inductive Counter where
  | puts | broken | dials | dialErrors | evictions | closes
deriving DecidableEq

/-- What a tally says of a counter. -/
def Tally.of (t : Tally) : Counter → Nat
  | .puts => t.puts
  | .broken => t.broken
  | .dials => t.dials
  | .dialErrors => t.dialErrors
  | .evictions => t.evictions
  | .closes => t.closes

/-- One thing that is done to a shard. -/
inductive Change where
  | counts (shard : Nat) (counter : Counter)
  /-- A connection joins the idle queue. -/
  | queues (shard : Nat)
  | promotes (shard : Nat)
  | demotes (shard : Nat)
  | shuts (shard : Nat)
deriving DecidableEq

def Change.shard : Change → Nat
  | counts i _ | queues i | promotes i | demotes i | shuts i => i

/-- What is done at shard `i` for a get to come to wait there. -/
def Borrowing.changes (i : Nat) : Borrowing → List Change
  | discarding _ => [.counts i .evictions, .counts i .closes]
  | validating _ => []
  | dialing => [.counts i .dials]

/-- What is done at shard `i` when a get that waits there goes on, with `visit` for what it takes to
come to wait again: a reply that is a failure is counted first. -/
def Borrowing.resumed (i : Nat) (b : Borrowing) (reply : Reply) (visit : List Change) :
    List Change :=
  match b, reply with
  | validating _, .error _ => [.counts i .closes]
  | dialing, .error _ => .counts i .dialErrors :: visit
  | _, _ => visit

def Getting.changes (n : Nat) (g : Getting) : List Change :=
  g.borrowing.changes ((g.start + g.attempt) % n)

/-- What is done at shard `i` by the return of a lent connection: it is counted, and the connection
joins the idle queue, or is closed because it is broken or the shard is out of service, or because
the queue is full. -/
def returned {α : Type} (i : Nat) (broken accepts : Bool) (w : Progress Unit α) : List Change :=
  (.counts i .puts :: if broken then [.counts i .broken] else []) ++
    match w with
    | .done _ => [.queues i]
    | .waits _ =>
      if broken || !accepts then [.counts i .closes] else [.counts i .evictions, .counts i .closes]

/-- What is done for a verdict to come to wait. -/
def Verdict.changes : Verdict → List Change
  | deciding .. => []
  | draining i _ _ => [.counts i .closes]

def Inspection.changes : Inspection → List Change
  | checking .. => []
  | judging v => v.changes

/-- What is done for a shutdown to come to wait, the shards that it shuts apart. -/
def Closing.changes : Closing → List Change
  | queued | joining => []
  | draining i _ _ => [.counts i .closes]

/-- What is done to come to wait, and nothing for a result. -/
def Progress.changes {σ α : Type} (f : σ → List Change) : Progress σ α → List Change
  | waits s => f s
  | done _ => []

/-- What is asked of the factory by coming to wait. -/
def Progress.asks {σ α : Type} (f : σ → Option Call) : Progress σ α → List Call
  | waits s => (f s).toList
  | done _ => []

section IsCount

/-- Whether the change is none but that a counter goes up. -/
def Change.isCount : Change → Bool
  | counts .. => true
  | queues _ | promotes _ | demotes _ | shuts _ => false

variable {i : Nat} {c : Change}

theorem Progress.isCount_of_mem {σ α : Type} {f : σ → List Change} {w : Progress σ α}
    (hf : ∀ s, c ∈ f s → c.isCount = true) (hc : c ∈ w.changes f) : c.isCount = true := by
  cases w with
  | waits s => exact hf s hc
  | done _ => cases hc

theorem Borrowing.isCount_of_mem (b : Borrowing) (hc : c ∈ b.changes i) : c.isCount = true := by
  cases b <;> simp only [changes, List.mem_cons, List.not_mem_nil, or_false] at hc
  · obtain rfl | rfl := hc <;> rfl
  · exact hc ▸ rfl

theorem Borrowing.isCount_of_mem_resumed (b : Borrowing) {reply : Reply} {visit : List Change}
    (hvisit : ∀ c ∈ visit, c.isCount = true) (hc : c ∈ b.resumed i reply visit) :
    c.isCount = true := by
  unfold resumed at hc
  split at hc
  · exact List.mem_singleton.mp hc ▸ rfl
  · obtain rfl | hc := List.mem_cons.mp hc
    · rfl
    · exact hvisit c hc
  · exact hvisit c hc

theorem Verdict.isCount_of_mem (v : Verdict) (hc : c ∈ v.changes) : c.isCount = true := by
  cases v with
  | deciding => cases hc
  | draining => exact List.mem_singleton.mp hc ▸ rfl

theorem Inspection.isCount_of_mem (s : Inspection) (hc : c ∈ s.changes) : c.isCount = true := by
  cases s with
  | checking => cases hc
  | judging v => exact v.isCount_of_mem hc

theorem Closing.isCount_of_mem (s : Closing) (hc : c ∈ s.changes) : c.isCount = true := by
  cases s with
  | queued | joining => cases hc
  | draining => exact List.mem_singleton.mp hc ▸ rfl

/-- The return of a connection queues it when it does not have to be closed. -/
theorem mem_returned {α : Type} {broken accepts : Bool} {w : Progress Unit α}
    (hc : c ∈ returned i broken accepts w) :
    c.isCount = true ∨ c = .queues i ∧ ∃ a, w = .done a := by
  obtain hc | hc := List.mem_append.mp hc
  · obtain rfl | hc := List.mem_cons.mp hc
    · exact .inl rfl
    · split at hc
      · exact .inl (List.mem_singleton.mp hc ▸ rfl)
      · cases hc
  · split at hc
    · exact .inr ⟨List.mem_singleton.mp hc, _, rfl⟩
    · refine .inl ?_
      split at hc
      · exact List.mem_singleton.mp hc ▸ rfl
      · simp only [List.mem_cons, List.not_mem_nil, or_false] at hc
        obtain rfl | rfl := hc <;> rfl

end IsCount

/-- The health checker when an errand stands as given; `due` is the next sweep's time. -/
def Checker.standing (due : Duration) : Progress Errand Unit → Checker
  | .waits e => working due e
  | .done _ => waiting due

def Entry.call? : Entry → Option Call
  | .event _ => none
  | .call c => some c

namespace Pool

/-- What was asked of the factory, in order. -/
def calls (p : Pool) : List Call := p.journal.reverse.filterMap Entry.call?

/-- What a verdict that goes on does to the flag of its shard. -/
def decision (p : Pool) : Verdict → List Change
  | .deciding i true => if p.flips i true then [.promotes i] else []
  | .deciding i false => if p.flips i false then [.demotes i] else []
  | .draining .. => []

def judgement (p : Pool) : Inspection → List Change
  | .checking .. => []
  | .judging v => p.decision v

theorem eq_of_mem_decision {p : Pool} {v : Verdict} {c : Change} (hc : c ∈ p.decision v) :
    c = .promotes v.shard ∨ c = .demotes v.shard := by
  unfold decision at hc
  split at hc
  · split at hc
    · exact .inl (List.mem_singleton.mp hc)
    · cases hc
  · split at hc
    · exact .inr (List.mem_singleton.mp hc)
    · cases hc
  · cases hc

/-- The changes by which a pool comes from another one. No call of the factory is among them, and
nothing that the health checker or the clock does. -/
structure Does (p : Pool) (l : List Change) (q : Pool) : Prop where
  config : q.config = p.config
  now : q.now = p.now
  tickSlack : q.tickSlack = p.tickSlack
  checker : q.checker = p.checker
  tasks : q.tasks = p.tasks
  calls : q.calls = p.calls
  /-- Suspects only join the queue, at its end. -/
  suspects : p.suspects <+: q.suspects
  stopping : p.stopping = true → q.stopping = true
  /-- A pool closes by a shutdown, which tells the health checker to stop. -/
  stops : q.closed = true → p.closed = true ∨ q.stopping = true
  length : q.shards.length = p.shards.length
  tally : ∀ i < p.shards.length, ∀ k,
    (q.shard i).tally.of k = (p.shard i).tally.of k + l.count (.counts i k)
  empty : ∀ i, .queues i ∉ l → (p.shard i).idle = [] → (q.shard i).idle = []
  available : ∀ i, .promotes i ∉ l → .demotes i ∉ l →
    (q.shard i).available = (p.shard i).available
  closed : ∀ i, .shuts i ∉ l → (q.shard i).closed = (p.shard i).closed

variable {p q r : Pool} {l m : List Change} {i : Nat} {f : Shard → Shard}

theorem calls_note (p : Pool) (e : Event) : (p.note e).calls = p.calls := by
  simp [calls, note, Entry.call?]

theorem calls_ask (p : Pool) (c : Call) : (p.ask c).calls = p.calls ++ [c] := by
  simp [calls, ask, Entry.call?]

namespace Does

/-- A step that leaves alone all that changes are about. -/
theorem of_eq (hconfig : q.config = p.config) (hnow : q.now = p.now)
    (hslack : q.tickSlack = p.tickSlack) (hchecker : q.checker = p.checker)
    (htasks : q.tasks = p.tasks) (hcalls : q.calls = p.calls)
    (hsuspects : p.suspects <+: q.suspects) (hstopping : p.stopping = true → q.stopping = true)
    (hstops : q.closed = true → p.closed = true ∨ q.stopping = true)
    (hshards : q.shards = p.shards) : p.Does [] q := by
  have hshard : ∀ i, q.shard i = p.shard i := fun i => by rw [Pool.shard, hshards, Pool.shard]
  refine ⟨hconfig, hnow, hslack, hchecker, htasks, hcalls, hsuspects, hstopping, hstops,
    by rw [hshards], fun i _ k => ?_, fun i _ hidle => ?_, fun i _ _ => ?_, fun i _ => ?_⟩
  · rw [hshard]
    rfl
  · rwa [hshard]
  · rw [hshard]
  · rw [hshard]

theorem refl (p : Pool) : p.Does [] p :=
  of_eq rfl rfl rfl rfl rfl rfl List.prefix_rfl id .inl rfl

theorem trans (hpq : p.Does l q) (hqr : q.Does m r) : p.Does (l ++ m) r where
  config := hqr.config.trans hpq.config
  now := hqr.now.trans hpq.now
  tickSlack := hqr.tickSlack.trans hpq.tickSlack
  checker := hqr.checker.trans hpq.checker
  tasks := hqr.tasks.trans hpq.tasks
  calls := hqr.calls.trans hpq.calls
  suspects := hpq.suspects.trans hqr.suspects
  stopping hp := hqr.stopping (hpq.stopping hp)
  stops hr := (hqr.stops hr).elim (fun hq => (hpq.stops hq).imp_right hqr.stopping) .inr
  length := hqr.length.trans hpq.length
  tally i hi k := by
    rw [hqr.tally i (hpq.length ▸ hi), hpq.tally i hi, List.count_append, Nat.add_assoc]
  empty i hi hidle := by
    rw [List.mem_append, not_or] at hi
    exact hqr.empty i hi.2 (hpq.empty i hi.1 hidle)
  available i hpromotes hdemotes := by
    rw [List.mem_append, not_or] at hpromotes hdemotes
    exact (hqr.available i hpromotes.2 hdemotes.2).trans (hpq.available i hpromotes.1 hdemotes.1)
  closed i hi := by
    rw [List.mem_append, not_or] at hi
    exact (hqr.closed i hi.2).trans (hpq.closed i hi.1)

/-- What comes before changes and is none itself. -/
theorem after (hqr : q.Does l r) (hpq : p.Does [] q) : p.Does l r := hpq.trans hqr

/-- What comes after changes and is none itself. -/
theorem before (hpq : p.Does l q) (hqr : q.Does [] r) : p.Does l r :=
  List.append_nil l ▸ hpq.trans hqr

theorem note (p : Pool) (e : Event) : p.Does [] (p.note e) :=
  of_eq rfl rfl rfl rfl rfl (calls_note p e) List.prefix_rfl id .inl rfl

theorem rotate (p : Pool) : p.Does [] p.rotate :=
  of_eq rfl rfl rfl rfl rfl rfl List.prefix_rfl id .inl rfl

theorem modifyConn (p : Pool) (c : ConnId) (g : Conn → Conn) : p.Does [] (p.modifyConn c g) :=
  of_eq rfl rfl rfl rfl rfl rfl List.prefix_rfl id .inl rfl

/-- A modification of one shard, by changes that are all of this shard. -/
theorem modifyShard (hl : ∀ d ∈ l, d.shard = i)
    (htally : ∀ s k, (f s).tally.of k = s.tally.of k + l.count (.counts i k))
    (hempty : .queues i ∉ l → ∀ s, s.idle = [] → (f s).idle = [])
    (havailable : .promotes i ∉ l → .demotes i ∉ l → ∀ s, (f s).available = s.available)
    (hclosed : .shuts i ∉ l → ∀ s, (f s).closed = s.closed) : p.Does l (p.modifyShard i f) := by
  have hothers : ∀ j k, i ≠ j → l.count (.counts j k) = 0 := fun j k hij =>
    List.count_eq_zero.mpr fun hmem => hij (hl _ hmem).symm
  have hcases : ∀ j, i = j ∧ (p.modifyShard i f).shard j = f (p.shard j) ∨
      (i = j → p.shards.length ≤ j) ∧ (p.modifyShard i f).shard j = p.shard j := by
    intro j
    by_cases hij : i = j
    · subst hij
      by_cases hi : i < p.shards.length
      · exact .inl ⟨rfl, shard_modifyShard_self hi⟩
      · have hout := Nat.le_of_not_lt hi
        exact .inr ⟨fun _ => hout, by rw [modifyShard_of_length_le hout]⟩
    · exact .inr ⟨fun h => absurd h hij, shard_modifyShard_of_ne hij⟩
  refine ⟨rfl, rfl, rfl, rfl, rfl, rfl, List.prefix_rfl, id, .inl, length_shards_modifyShard,
    fun j hj k => ?_, fun j hj hidle => ?_, fun j hpromotes hdemotes => ?_, fun j hj => ?_⟩ <;>
    obtain ⟨rfl, hshard⟩ | ⟨hout, hshard⟩ := hcases j <;> rw [hshard]
  · exact htally _ k
  · rw [hothers j k fun hij => absurd hj (Nat.not_lt.mpr (hout hij)), Nat.add_zero]
  · exact hempty hj _ hidle
  · exact hidle
  · exact havailable hpromotes hdemotes _
  · exact hclosed hj _

/-- A modification of a shard that is no change. -/
theorem adjust (htally : ∀ s, (f s).tally = s.tally) (hidle : ∀ s, s.idle = [] → (f s).idle = [])
    (havailable : ∀ s, (f s).available = s.available) (hclosed : ∀ s, (f s).closed = s.closed) :
    p.Does [] (p.modifyShard i f) :=
  modifyShard (by simp) (fun s k => by rw [htally]; rfl) (fun _ => hidle) (fun _ _ => havailable)
    (fun _ => hclosed)

theorem count (k : Counter) {g : Tally → Tally}
    (hg : ∀ t k', (g t).of k' = t.of k' + if k = k' then 1 else 0) :
    p.Does [.counts i k] (p.count i g) :=
  modifyShard (by simp [Change.shard])
    (fun s k' => by simp [Shard.count, hg, List.count_singleton])
    (fun _ _ hidle => hidle) (fun _ _ _ => rfl) (fun _ _ => rfl)

theorem countGet : p.Does [] (p.count i Tally.countGet) :=
  modifyShard (by simp) (fun s k => by cases k <;> rfl) (fun _ _ hidle => hidle)
    (fun _ _ _ => rfl) (fun _ _ => rfl)

theorem countDial : p.Does [.counts i .dials] (p.count i Tally.countDial) :=
  count .dials fun t k => by cases k <;> simp [Tally.of, Tally.countDial]

theorem countDialError : p.Does [.counts i .dialErrors] (p.count i Tally.countDialError) :=
  count .dialErrors fun t k => by cases k <;> simp [Tally.of, Tally.countDialError]

theorem countEviction : p.Does [.counts i .evictions] (p.count i Tally.countEviction) :=
  count .evictions fun t k => by cases k <;> simp [Tally.of, Tally.countEviction]

theorem countClose : p.Does [.counts i .closes] (p.count i Tally.countClose) :=
  count .closes fun t k => by cases k <;> simp [Tally.of, Tally.countClose]

theorem releaseSlot : p.Does [] (p.modifyShard i Shard.releaseSlot) :=
  adjust (fun _ => rfl) (fun _ hidle => hidle) (fun _ => rfl) (fun _ => rfl)

theorem occupySlot : p.Does [] (p.modifyShard i Shard.occupySlot) :=
  adjust (fun _ => rfl) (fun _ hidle => hidle) (fun _ => rfl) (fun _ => rfl)

theorem dropIdle : p.Does [] (p.dropIdle i) :=
  adjust (fun _ => rfl) (fun _ hidle => by rw [hidle, List.tail_nil]) (fun _ => rfl) (fun _ => rfl)

theorem enqueue (c : ConnId) :
    p.Does [.queues i] (p.modifyShard i fun s => { s with idle := s.idle ++ [c] }) :=
  modifyShard (by simp [Change.shard]) (fun _ _ => rfl) (fun h => absurd List.mem_cons_self h)
    (fun _ _ _ => rfl) (fun _ _ => rfl)

theorem shut : p.Does [.shuts i] (p.modifyShard i fun s => { s with closed := true }) :=
  modifyShard (by simp [Change.shard]) (fun _ _ => rfl) (fun _ _ hidle => hidle)
    (fun _ _ _ => rfl) (fun h => absurd List.mem_cons_self h)

theorem offerSuspect (p : Pool) (i : Nat) : p.Does [] (p.offerSuspect i) := by
  unfold Pool.offerSuspect
  split
  · exact refl p
  split
  · have hoffer : p.Does [] { p with suspects := p.suspects ++ [i] } :=
      of_eq rfl rfl rfl rfl rfl rfl (List.prefix_append _ _) id .inl rfl
    exact hoffer.before (note _ _)
  · exact note p _

theorem recordOutcome (p : Pool) (i : Nat) (failed : Bool) :
    p.Does [] (p.recordOutcome i failed) := by
  obtain ⟨count, heq⟩ := exists_recordOutcome_eq p i failed
  have hfails : p.Does [] (p.modifyShard i fun s => { s with fails := count s.fails }) :=
    adjust (fun _ => rfl) (fun _ hidle => hidle) (fun _ => rfl) (fun _ => rfl)
  obtain heq | heq := heq
  · exact heq ▸ hfails
  · exact heq ▸ hfails.before (offerSuspect _ i)

theorem noteIdleClose (p : Pool) (i : Nat) (reply : Reply) :
    p.Does [] (p.noteIdleClose i reply) := by
  cases reply with
  | ok _ => exact refl p
  | error e => exact note p _

section Get

theorem lend (p : Pool) (i : Nat) (c : ConnId) : p.Does [] (p.lend i c) :=
  (modifyConn p c _).before occupySlot

theorem serve (p : Pool) (i : Nat) :
    p.Does ((p.serve i).2.changes (Borrowing.changes i)) (p.serve i).1 := by
  unfold Pool.serve
  dsimp only
  split
  · split
    · exact ((countEviction.after (note _ _)).after dropIdle).trans countClose
    split
    · exact dropIdle
    · exact dropIdle.before (lend _ i _)
  · split
    · exact countDial.after occupySlot
    · exact refl p

theorem borrow (p : Pool) (i : Nat) :
    p.Does ((p.borrow i).2.changes (Borrowing.changes i)) (p.borrow i).1 := by
  unfold Pool.borrow
  split
  · exact refl p
  · exact (serve _ i).after countGet

theorem adopt (p : Pool) (i : Nat) : p.Does [] (p.adopt i) := by
  have hrecord := recordOutcome p i false
  have hconns : (p.recordOutcome i false).Does [] { p.recordOutcome i false with conns :=
      (p.recordOutcome i false).conns ++ [⟨i, true, (p.recordOutcome i false).now⟩] } :=
    of_eq rfl rfl rfl rfl rfl rfl List.prefix_rfl id .inl rfl
  exact (hrecord.before hconns).before (note _ _)

theorem failDial (p : Pool) (i : Nat) (e : PoolError) :
    p.Does [.counts i .dialErrors] (p.failDial i e) :=
  ((countDialError.after (recordOutcome p i true)).before releaseSlot).before (note _ _)

theorem resumeBorrow (p : Pool) (i : Nat) (b : Borrowing) (reply : Reply) :
    p.Does (b.resumed i reply ((p.resumeBorrow i b reply).2.changes (Borrowing.changes i)))
      (p.resumeBorrow i b reply).1 := by
  cases b with
  | discarding c => exact (serve _ i).after (noteIdleClose p i reply)
  | validating c =>
    cases reply with
    | ok _ => exact lend p i c
    | error e => exact countClose.after (note p _)
  | dialing =>
    cases reply with
    | ok _ => exact adopt p i
    | error e => exact failDial p i e

theorem passOver (p : Pool) (i attempt : Nat) (e : PoolError) :
    p.Does [] (p.passOver i attempt e) :=
  (rotate p).before (note _ _)

theorem visit (p : Pool) (start attempt left : Nat) :
    p.Does ((p.visit start attempt left).2.changes (Getting.changes p.shards.length))
      (p.visit start attempt left).1 := by
  induction left generalizing p attempt with
  | zero => exact refl p
  | succ left ih =>
    unfold Pool.visit
    dsimp only
    split
    · have hborrow := borrow p (p.visited start attempt)
      split <;> rename_i heq <;> rw [heq] at hborrow
      · exact hborrow
      · exact hborrow
      · rename_i q e
        have hon := hborrow.before (passOver q (p.visited start attempt) attempt e)
        have hrest := ih (q.passOver (p.visited start attempt) attempt e) (attempt + 1)
        rw [hon.length] at hrest
        exact hrest.after hon
    · exact (ih _ _).after (rotate p)

theorem get (p : Pool) : p.Does (p.get.2.changes (Getting.changes p.shards.length)) p.get.1 := by
  unfold Pool.get
  split
  · exact refl p
  · exact (visit _ _ _ _).after (rotate p)

theorem resumeGet (p : Pool) (g : Getting) (reply : Reply) :
    p.Does (g.borrowing.resumed (p.visited g.start g.attempt) reply
      ((p.resumeGet g reply).2.changes (Getting.changes p.shards.length)))
      (p.resumeGet g reply).1 := by
  obtain ⟨start, attempt, b⟩ := g
  have hborrow := resumeBorrow p (p.visited start attempt) b reply
  unfold Pool.resumeGet
  dsimp only at hborrow ⊢
  split <;> rename_i heq <;> rw [heq] at hborrow
  · exact hborrow
  · exact hborrow
  · rename_i q e
    have hon := hborrow.before (passOver _ (p.visited start attempt) attempt e)
    have hvisit := visit (q.passOver (p.visited start attempt) attempt e) start (attempt + 1)
      (q.maxRetry - (attempt + 1))
    rw [hon.length] at hvisit
    have hall := hon.trans hvisit
    cases b with
    | discarding c => exact hall
    | validating c => cases reply <;> cases heq
    | dialing => cases reply <;> exact hall

end Get

section Put

theorem reclaim (p : Pool) (i : Nat) (c : ConnId) (broken : Bool) :
    p.Does (.counts i .puts :: if broken then [.counts i .broken] else [])
      (p.reclaim i c broken) := by
  have hcount (q : Pool) : q.Does (.counts i .puts :: if broken then [.counts i .broken] else [])
      (q.count i (·.countPut broken)) := by
    refine Does.modifyShard ?_ (fun s k => ?_) (fun _ _ hidle => hidle) (fun _ _ _ => rfl)
      (fun _ _ => rfl)
    · cases broken <;> simp [Change.shard]
    · cases broken <;> cases k <;> simp [Shard.count, Tally.of, Tally.countPut]
  have hconn := (modifyConn p c fun conn =>
    { conn with borrowed := false, lastUsed := p.now }).before (recordOutcome _ i broken)
  exact ((hcount _).after hconn).before releaseSlot

/-- A return that is taken is counted, and the connection joins the idle queue or is closed. -/
theorem put (p : Pool) {i : Nat} {c : ConnId} {lastUsed : Duration}
    (hconn : p.conns[c]? = some ⟨i, true, lastUsed⟩) (broken : Bool) :
    p.Does (returned i broken (p.shard i).acceptsIdle (p.put c broken).2) (p.put c broken).1 := by
  have hreclaim := reclaim p i c broken
  simp only [Pool.put, hconn, acceptsIdle_reclaim]
  split
  · rename_i hrefused
    rw [returned, if_pos hrefused]
    exact hreclaim.trans countClose
  rename_i htaken
  split
  · exact hreclaim.trans (enqueue c)
  · rw [returned, if_neg htaken]
    exact hreclaim.trans ((countEviction.after (note _ _)).trans countClose)

/-- A returned connection is queued by a shard that accepts it. -/
theorem acceptsIdle_of_put {p : Pool} {i : Nat} {c : ConnId} {lastUsed : Duration}
    (hconn : p.conns[c]? = some ⟨i, true, lastUsed⟩) {broken : Bool} {a : Except PoolError Unit}
    (hdone : (p.put c broken).2 = .done a) : (p.shard i).acceptsIdle = true := by
  simp only [Pool.put, hconn, acceptsIdle_reclaim] at hdone
  split at hdone
  · cases hdone
  · rename_i haccepts
    simpa using (not_or.mp (mt (Bool.or_eq_true ..).mpr haccepts)).2

end Put

section Verdict

theorem drain (p : Pool) (i drained : Nat) :
    p.Does ((p.drain i drained).2.changes Verdict.changes) (p.drain i drained).1 := by
  unfold Pool.drain
  dsimp only
  split
  · exact countClose.after dropIdle
  · exact note p _

/-- What a decision does to the flag of its shard. -/
theorem flag (p : Pool) (i numAvailable : Nat) (available : Bool) :
    p.Does [if available then .promotes i else .demotes i]
      ({ p with numAvailable }.modifyShard i fun s => { s with available }) := by
  have hcount : p.Does [] { p with numAvailable } :=
    of_eq rfl rfl rfl rfl rfl rfl List.prefix_rfl id .inl rfl
  refine Does.after (Does.modifyShard ?_ (fun s k => ?_) (fun _ _ hidle => hidle) ?_
    (fun _ _ => rfl)) hcount <;> cases available
  · simp [Change.shard]
  · simp [Change.shard]
  · rfl
  · rfl
  · exact fun _ h => absurd List.mem_cons_self h
  · exact fun h => absurd List.mem_cons_self h

theorem promote (p : Pool) (i : Nat) :
    p.Does (if p.flips i true then [.promotes i] else []) (p.promote i).1 := by
  cases havailable : (p.shard i).available with
  | true =>
    simp only [Pool.promote, flips, havailable, if_true, Bool.not_true, Bool.false_eq_true,
      if_false]
    exact refl p
  | false =>
    simp only [Pool.promote, flips, havailable, if_true, Bool.not_false, Bool.false_eq_true,
      if_false]
    exact (flag p i (p.numAvailable + 1) true).before (note _ _)

theorem demote (p : Pool) (i : Nat) :
    p.Does ((if p.flips i false then [.demotes i] else []) ++
      (p.demote i).2.changes Verdict.changes) (p.demote i).1 := by
  cases havailable : (p.shard i).available with
  | false =>
    simp only [Pool.demote, flips, havailable, Bool.not_false, if_true, Bool.false_and,
      Bool.false_eq_true, if_false]
    exact refl p
  | true =>
    cases hpermits : p.config.quorum.permitsDemotion p.numAvailable p.shards.length with
    | false =>
      simp only [Pool.demote, flips, havailable, hpermits, Bool.not_true, Bool.not_false, if_true,
        Bool.and_false, Bool.false_eq_true, if_false]
      exact note p _
    | true =>
      simp only [Pool.demote, flips, havailable, hpermits, Bool.not_true, if_true, Bool.and_self,
        Bool.false_eq_true, if_false]
      exact ((flag p i (p.numAvailable - 1) false).before (note _ _)).trans (drain _ i 0)

theorem resumeVerdict (p : Pool) (v : Verdict) (reply : Reply) :
    p.Does (p.decision v ++ (p.resumeVerdict v reply).2.changes Verdict.changes)
      (p.resumeVerdict v reply).1 := by
  cases v with
  | deciding i healthy =>
    cases healthy with
    | true =>
      have hnone : (p.promote i).2.changes Verdict.changes = [] := by
        unfold Pool.promote
        split <;> rfl
      change p.Does (_ ++ (p.promote i).2.changes Verdict.changes) _
      rw [hnone, List.append_nil]
      exact promote p i
    | false => exact demote p i
  | draining i c drained => exact (drain _ i _).after (noteIdleClose p i reply)

theorem resumeCheck (p : Pool) (c : Check) (reply : Reply) :
    p.Does [] (p.resumeCheck c reply).1 := by
  unfold Pool.resumeCheck
  split
  · exact refl p
  · exact note p _
  · exact refl p
  · exact refl p
  · dsimp only
    split <;> split
    · exact refl p
    · exact note p _
    · exact note p _
    · exact (note p _).before (note _ _)

end Verdict

section Checker

theorem resumeInspection (p : Pool) (s : Inspection) (reply : Reply) :
    p.Does (p.judgement s ++ (p.resumeInspection s reply).2.changes Inspection.changes)
      (p.resumeInspection s reply).1 := by
  cases s with
  | checking i c =>
    have hcheck := resumeCheck p c reply
    unfold Pool.resumeInspection
    dsimp only
    split <;> rename_i heq <;> rw [heq] at hcheck <;> exact hcheck
  | judging v =>
    have hverdict := resumeVerdict p v reply
    unfold Pool.resumeInspection
    dsimp only
    split <;> rename_i heq <;> rw [heq] at hverdict <;> exact hverdict

/-- An errand that goes on does what its inspection does. -/
theorem resumeErrand (p : Pool) (e : Errand) (reply : Reply) :
    p.Does (p.judgement e.inspection ++
      (p.resumeInspection e.inspection reply).2.changes Inspection.changes)
      (p.resumeErrand e reply).1 := by
  rw [fst_resumeErrand]
  exact resumeInspection p e.inspection reply

end Checker

section Shutdown

/-- Shards are shut from the first of the last `left` on. -/
theorem closeLast (p : Pool) (left : Nat) :
    ∃ js : List Nat, (∀ j ∈ js, p.shards.length - left ≤ j) ∧
      p.Does (js.map .shuts ++ (p.closeLast left).2.changes Closing.changes)
        (p.closeLast left).1 := by
  induction left generalizing p with
  | zero => exact ⟨[], by simp, note p _⟩
  | succ left ih =>
    let i := p.shards.length - (left + 1)
    have hshut : p.Does [.shuts i] (p.modifyShard i fun s => { s with closed := true }) := shut
    unfold Pool.closeLast
    dsimp only
    split
    · refine ⟨[i], fun j hj => ?_, hshut.trans (countClose.after dropIdle)⟩
      exact Nat.le_of_eq (List.mem_singleton.mp hj).symm
    · have hon := hshut.before (note _ (.shardClosed
        ((p.modifyShard i fun s => { s with closed := true }).shard i).address 0))
      obtain ⟨js, hjs, hrest⟩ := ih (Pool.note _ _)
      rw [hon.length] at hjs
      refine ⟨i :: js, fun j hj => ?_, hon.trans hrest⟩
      obtain rfl | hj := List.mem_cons.mp hj
      · exact Nat.le_refl _
      · exact Nat.le_trans (by omega) (hjs j hj)

theorem closeOn (p : Pool) (i drained : Nat) :
    ∃ js : List Nat, (∀ j ∈ js, i < j ∨ p.shards.length ≤ j) ∧
      p.Does (js.map .shuts ++ (p.closeOn i drained).2.changes Closing.changes)
        (p.closeOn i drained).1 := by
  unfold Pool.closeOn
  split
  · exact ⟨[], by simp, countClose.after dropIdle⟩
  · have hnote := note p (.shardClosed (p.shard i).address drained)
    obtain ⟨js, hjs, hrest⟩ := closeLast (p.note (.shardClosed (p.shard i).address drained))
      (p.shards.length - (i + 1))
    rw [hnote.length] at hjs
    exact ⟨js, fun j hj => by have := hjs j hj; omega, hrest.after hnote⟩

theorem enterShutdown (p : Pool) :
    p.Does (p.enterShutdown.2.changes Closing.changes) p.enterShutdown.1 := by
  unfold Pool.enterShutdown
  split
  · exact note p _
  · exact of_eq rfl rfl rfl rfl rfl rfl List.prefix_rfl (fun _ => rfl) (fun _ => .inr rfl) rfl

theorem shutdown (p : Pool) : p.Does (p.shutdown.2.changes Closing.changes) p.shutdown.1 := by
  unfold Pool.shutdown
  split
  · exact refl p
  · exact enterShutdown p

/-- A shutdown that goes on shuts none of the shards up to the one that it was at. -/
theorem resumeShutdown (p : Pool) (s : Closing) (reply : Reply) :
    ∃ js : List Nat, (∀ i c drained, s = .draining i c drained →
        ∀ j ∈ js, i < j ∨ p.shards.length ≤ j) ∧
      p.Does (js.map .shuts ++ (p.resumeShutdown s reply).2.changes Closing.changes)
        (p.resumeShutdown s reply).1 := by
  cases s with
  | queued =>
    by_cases hunder : p.shutdownUnderWay = true
    · simp only [Pool.resumeShutdown, hunder, if_true]
      exact ⟨[], by simp, refl p⟩
    · simp only [Pool.resumeShutdown, hunder, Bool.false_eq_true, if_false]
      exact ⟨[], by simp, enterShutdown p⟩
  | joining =>
    by_cases hstopped : p.checker = .stopped
    · simp only [Pool.resumeShutdown, hstopped, if_true]
      obtain ⟨js, -, hdoes⟩ := closeLast p p.shards.length
      exact ⟨js, by simp, hdoes⟩
    · simp only [Pool.resumeShutdown, hstopped, if_false]
      exact ⟨[], by simp, refl p⟩
  | draining i c drained =>
    have hnote := noteIdleClose p i reply
    obtain ⟨js, hjs, hdoes⟩ := closeOn (p.noteIdleClose i reply) i (drained + 1)
    rw [hnote.length] at hjs
    refine ⟨js, fun j _ _ hj => ?_, hdoes.after hnote⟩
    cases hj
    exact hjs

end Shutdown

/-- A request that begins counts, and queues a connection at a shard that accepts it; it does
nothing else to a shard. -/
theorem exists_begin (p : Pool) (request : Request) : ∃ l, p.Does l (p.begin request).1 ∧
    ∀ c ∈ l, c.isCount = true ∨ ∃ i, c = .queues i ∧ (p.shard i).acceptsIdle = true := by
  cases request with
  | get =>
    refine ⟨_, get p, fun c hc => .inl (Progress.isCount_of_mem (fun g hg => ?_) hc)⟩
    exact g.borrowing.isCount_of_mem hg
  | put c broken =>
    cases hlent : p.isLent c with
    | true =>
      obtain ⟨i, lastUsed, hconn⟩ := exists_conn_of_isLent hlent
      refine ⟨_, put p hconn broken, fun d hd => (mem_returned hd).imp_right ?_⟩
      rintro ⟨rfl, a, hdone⟩
      exact ⟨i, rfl, acceptsIdle_of_put hconn hdone⟩
    | false =>
      refine ⟨[], ?_, by simp⟩
      change p.Does [] (p.put c broken).1
      rw [put_of_not_lent hlent]
      exact refl p
  | strayPut | mark | check => exact ⟨[], refl p, by simp⟩
  | shutdown =>
    refine ⟨_, shutdown p, fun c hc => .inl (Progress.isCount_of_mem (fun s hs => ?_) hc)⟩
    exact s.isCount_of_mem hs

/-- Only a request that begins queues a connection. -/
theorem exists_advance (p : Pool) (t : Task) (reply : Reply) :
    ∃ l, p.Does l (p.advance t reply).1 ∧ ∀ i, .queues i ∉ l := by
  cases t with
  | get g =>
    refine ⟨_, resumeGet p g reply, fun i hi => ?_⟩
    cases g.borrowing.isCount_of_mem_resumed
      (fun c => Progress.isCount_of_mem fun g' => g'.borrowing.isCount_of_mem) hi
  | put c => exact ⟨[], refl p, by simp⟩
  | strayPut =>
    cases reply with
    | ok _ => exact ⟨[], refl p, by simp⟩
    | error e => exact ⟨[], note p _, by simp⟩
  | verdict v =>
    refine ⟨_, resumeVerdict p v reply, fun i hi => ?_⟩
    obtain hi | hi := List.mem_append.mp hi
    · obtain hi | hi := eq_of_mem_decision hi <;> cases hi
    · cases Progress.isCount_of_mem (fun v => v.isCount_of_mem) hi
  | check c => exact ⟨[], resumeCheck p c reply, by simp⟩
  | shutdown s =>
    obtain ⟨js, -, hdoes⟩ := resumeShutdown p s reply
    refine ⟨_, hdoes, fun i hi => ?_⟩
    obtain hi | hi := List.mem_append.mp hi
    · obtain ⟨j, -, hj⟩ := List.mem_map.mp hi
      cases hj
    · cases Progress.isCount_of_mem (fun s => s.isCount_of_mem) hi

end Does

theorem calls_askFor (p : Pool) (t : Task) :
    (p.askFor t).calls = p.calls ++ (t.call? p).toList := by
  unfold askFor
  cases t.call? p with
  | none => exact (List.append_nil _).symm
  | some call => exact calls_ask p call

theorem calls_setErrand (p : Pool) (due : Duration) (w : Progress Errand Unit) :
    (p.setErrand due w).calls = p.calls ++ w.asks (·.inspection.call?) := by
  cases w with
  | waits e =>
    unfold setErrand Progress.asks
    dsimp only
    cases e.inspection.call? with
    | none => exact (List.append_nil _).symm
    | some call => exact calls_ask _ call
  | done _ => exact (List.append_nil _).symm

theorem exists_setErrand_eq (p : Pool) (due : Duration) (w : Progress Errand Unit) :
    ∃ journal, p.setErrand due w = { p with checker := .standing due w, journal } := by
  unfold setErrand
  split
  · split <;> exact ⟨_, rfl⟩
  · exact ⟨_, rfl⟩

end Pool

end QuorumPool
