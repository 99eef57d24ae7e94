import QuorumPool.Pool.Alone
import QuorumPool.Proofs.Shutdown

namespace QuorumPool.Pool

variable {p q : Pool} {σ : Type}

/-- The states that a pool comes to by runs, with its journal handed over at any time. -/
inductive Reached : Pool → Prop
  | create {config : Config} {addresses : List String} {now : Duration} {p : Pool} :
      create config addresses now = .ok p → Reached p
  | act {p : Pool} {a : Action} : Reached p → p.Admits a → Reached (p.act a)
  | report {p : Pool} : Reached p → Reached p.takeJournal.1

section Runs

/-- What the health checker does before it waits is a run. -/
theorem exists_run_settle (serve : Service σ) (fuel : Nat) (s : σ) (p : Pool) :
    ∃ as, p.Runs as ∧ (settle serve fuel s p).2 = p.after as := by
  induction fuel generalizing s p with
  | zero => exact ⟨[], trivial, rfl⟩
  | succ fuel ih =>
    have hstep : ∃ a s', p.Admits a ∧ stepChecker serve s p = (s', p.act a) := by
      unfold stepChecker
      split
      · exact ⟨.resumeChecker _, _, trivial, rfl⟩
      · exact ⟨.turn, s, trivial, rfl⟩
    unfold settle
    split
    · obtain ⟨a, s', hadmits, hstep⟩ := hstep
      obtain ⟨as, hruns, hafter⟩ := ih s' (p.act a)
      refine ⟨a :: as, ⟨hadmits, hruns⟩, ?_⟩
      rw [hstep]
      exact hafter
    · exact ⟨[], trivial, rfl⟩

/-- What comes of going on with a task: a run, whose last action answers for the task if it is
answered. -/
def Carries (p : Pool) (id : TaskId) (w : σ × Pool × Option Answer) : Prop :=
  ∃ as, p.Runs as ∧ w.2.1 = p.after as ∧ ∀ a, w.2.2 = some a →
    ∃ bs reply, as = bs ++ [.resume id reply] ∧ (p.after bs).answer? (.resume id reply) = some a

theorem Carries.after {id : TaskId} {w : σ × Pool × Option Answer} {as : List Action}
    (hruns : p.Runs as) (hw : (p.after as).Carries id w) : p.Carries id w := by
  obtain ⟨bs, hmore, hafter, hanswer⟩ := hw
  refine ⟨as ++ bs, runs_append.mpr ⟨hruns, hmore⟩, by rw [after_append]; exact hafter,
    fun a ha => ?_⟩
  obtain ⟨cs, reply, rfl, hlast⟩ := hanswer a ha
  exact ⟨as ++ cs, reply, by simp, by rwa [after_append]⟩

theorem carries_carry (serve : Service σ) (id : TaskId) (fuel : Nat) (s : σ) (p : Pool) :
    p.Carries id (carry serve id fuel s p) := by
  induction fuel generalizing s p with
  | zero => exact ⟨[], trivial, rfl, nofun⟩
  | succ fuel ih =>
    have hanswered {s : σ} {reply : Reply} (hadmits : p.Admits (.resume id reply)) {q : Pool}
        {a : Answer} (hresume : p.resume id reply = (q, some a)) :
        p.Carries id (s, q, some a) := by
      refine ⟨[.resume id reply], ⟨hadmits, trivial⟩, (congrArg Prod.fst hresume).symm,
        fun b hb => ⟨[], reply, rfl, ?_⟩⟩
      exact (congrArg Prod.snd hresume).trans hb
    have hwaits {s : σ} {reply : Reply} (hadmits : p.Admits (.resume id reply)) {q : Pool}
        (hresume : p.resume id reply = (q, none)) : p.Carries id (carry serve id fuel s q) := by
      have hact : p.after [.resume id reply] = q := congrArg Prod.fst hresume
      have hruns : p.Runs [.resume id reply] := ⟨hadmits, trivial⟩
      exact .after hruns (hact ▸ ih s q)
    unfold carry
    split
    · rename_i call hcall
      have hadmits (reply : Reply) : p.Admits (.resume id reply) := .inl (by rw [hcall]; rfl)
      dsimp only
      split
      · rename_i hresume
        exact hanswered (hadmits _) hresume
      · rename_i hresume
        exact hwaits (hadmits _) hresume
    split
    · rename_i hready
      split
      · rename_i hresume
        exact hanswered (.inr hready) hresume
      · rename_i hresume
        exact hwaits (.inr hready) hresume
    · obtain ⟨as, hruns, hafter⟩ := exists_run_settle serve p.checkerEffort s p
      dsimp only
      rw [hafter]
      exact .after hruns (ih _ _)

/-- A request with nobody else around is a run, which serves the request if it is answered. -/
theorem exists_run_perform (serve : Service σ) (s : σ) (p : Pool) (request : Request) :
    ∃ as, p.Runs as ∧ (perform serve s p request).2.1 = p.after as ∧
      ∀ a, (perform serve s p request).2.2 = some a → p.Serves request as a := by
  unfold perform
  rcases hstart : p.start request with ⟨q, id | a⟩
  · have hact : p.act (.start request) = q := congrArg Prod.fst hstart
    obtain ⟨as, hruns, hafter, hanswer⟩ := carries_carry serve id q.effort s q
    refine ⟨.start request :: as, ⟨trivial, hact ▸ hruns⟩, hact ▸ hafter, fun b hb => ?_⟩
    obtain ⟨bs, reply, rfl, hlast⟩ := hanswer b hb
    exact .inr ⟨id, bs, reply, by rw [hstart], rfl, hact ▸ hlast⟩
  · have hact : p.act (.start request) = q := congrArg Prod.fst hstart
    refine ⟨[.start request], ⟨trivial, trivial⟩, hact.symm, fun b hb => .inl ⟨rfl, ?_⟩⟩
    rw [answer?, hstart]
    exact hb

end Runs

namespace Reached

theorem after (hp : p.Reached) {as : List Action} (hruns : p.Runs as) : (p.after as).Reached :=
  hruns.keeps (fun _ _ hadmits hq => .act hq hadmits) hp

theorem settle (hp : p.Reached) (serve : Service σ) (fuel : Nat) (s : σ) :
    (Pool.settle serve fuel s p).2.Reached := by
  obtain ⟨as, hruns, hafter⟩ := exists_run_settle serve fuel s p
  exact hafter ▸ hp.after hruns

theorem wellFormed (hp : p.Reached) : p.WellFormed := by
  induction hp with
  | create hcreate => exact .of_create hcreate
  | act _ _ ih => exact ih.act _
  | report _ ih => exact ih.congr rfl rfl rfl rfl rfl rfl

end Reached

section Closed

theorem closed_closeLast (left : Nat) : (p.closeLast left).1.closed = p.closed := by
  induction left generalizing p with
  | zero => rfl
  | succ left ih =>
    unfold closeLast
    dsimp only
    split
    · rfl
    · exact ih

theorem closed_closeOn (i drained : Nat) : (p.closeOn i drained).1.closed = p.closed := by
  unfold closeOn
  split
  · rfl
  · exact closed_closeLast _

theorem closed_enterShutdown (p : Pool) : p.enterShutdown.1.closed = true := by
  unfold enterShutdown
  split
  · assumption
  · rfl

theorem closed_resumeShutdown (hclosed : p.closed = true) (s : Closing) (reply : Reply) :
    (p.resumeShutdown s reply).1.closed = true := by
  cases s with
  | queued =>
    simp only [resumeShutdown]
    split
    · exact hclosed
    · exact closed_enterShutdown p
  | joining =>
    simp only [resumeShutdown]
    split
    · exact (closed_closeLast _).trans hclosed
    · exact hclosed
  | draining i c drained =>
    exact (closed_closeOn i _).trans ((Aside.noteIdleClose p i reply).closed.trans hclosed)

theorem closed_start (hclosed : p.closed = true) (request : Request) :
    (p.start request).1.closed = true := by
  refine (aside_start p request).1.closed.trans ?_
  by_cases hrequest : request = .shutdown
  · subst hrequest
    change p.shutdown.1.closed = true
    unfold shutdown
    split
    · exact hclosed
    · exact closed_enterShutdown p
  · exact (Aside.begin p hrequest).closed.trans hclosed

/-- A closed pool stays closed. -/
theorem closed_act (hclosed : p.closed = true) (a : Action) : (p.act a).closed = true := by
  cases a with
  | start request => exact closed_start hclosed request
  | resume id reply =>
    change (p.resume id reply).1.closed = true
    cases ht : p.task? id with
    | none =>
      simp only [resume, ht]
      exact hclosed
    | some t =>
      refine (aside_resume ht reply).1.closed.trans ?_
      by_cases hshutdown : ∃ s, t = .shutdown s
      · obtain ⟨s, rfl⟩ := hshutdown
        exact closed_resumeShutdown hclosed s reply
      · exact (Aside.advance p (not_exists.mp hshutdown) reply).closed.trans hclosed
  | turn => exact (Aside.turn p).closed.trans hclosed
  | resumeChecker reply => exact (Aside.resumeChecker p reply).closed.trans hclosed
  | setTime | takeStats | takeShardStats | abandon => exact hclosed

theorem closed_after (hclosed : p.closed = true) (as : List Action) :
    (p.after as).closed = true := by
  induction as generalizing p with
  | nil => exact hclosed
  | cons a as ih => exact ih (closed_act hclosed a)

private theorem begin_eq_waits_shutdown {request : Request} {s : Closing}
    (hbegin : (p.begin request).2 = .waits (.shutdown s)) : request = .shutdown := by
  cases request with
  | shutdown => rfl
  | strayPut => cases hbegin
  | _ =>
    obtain ⟨w, -, hw⟩ := Progress.map_eq_waits.mp hbegin
    cases hw

private theorem advance_eq_waits_shutdown {t : Task} {reply : Reply} {s : Closing}
    (hadvance : (p.advance t reply).2 = .waits (.shutdown s)) : ∃ s', t = .shutdown s' := by
  cases t with
  | shutdown s' => exact ⟨s', rfl⟩
  | put c => cases hadvance
  | strayPut => cases hadvance
  | _ =>
    obtain ⟨w, -, hw⟩ := Progress.map_eq_waits.mp hadvance
    cases hw

/-- A shutdown has closed the pool by the time that its first step is over, whoever it was that
began. -/
theorem closed_start_shutdown (hwork : ∀ id s, (id, .shutdown s) ∈ p.tasks → p.closed = true) :
    (p.start .shutdown).1.closed = true := by
  refine (aside_start p .shutdown).1.closed.trans ?_
  change p.shutdown.1.closed = true
  unfold shutdown
  split
  · rename_i hqueue
    obtain ⟨id, s, hmem⟩ : ∃ id s, (id, Task.shutdown s) ∈ p.tasks := by
      simp only [shutdownUnderWay, shutdownQueued, Bool.or_eq_true, List.any_eq_true] at hqueue
      obtain ⟨⟨id, t⟩, hmem, ht⟩ | ⟨⟨id, t⟩, hmem, ht⟩ := hqueue
      · cases t with
        | shutdown s => exact ⟨id, s, hmem⟩
        | _ => cases ht
      · exact ⟨id, .queued, of_decide_eq_true ht ▸ hmem⟩
    exact hwork id s hmem
  · exact closed_enterShutdown p

namespace Reached

/-- While a shutdown is in flight the pool is closed. -/
theorem closed_of_mem (hp : p.Reached) {id : TaskId} {s : Closing}
    (ht : (id, .shutdown s) ∈ p.tasks) : p.closed = true := by
  induction hp generalizing id s with
  | create hcreate =>
    obtain ⟨_, _, rfl⟩ := eq_of_create hcreate
    cases ht
  | @act p a hp _ ih =>
    obtain ⟨-, ht⟩ | ⟨reply, u, rfl, hu, hadvance⟩ | ⟨-, request, rfl, hbegin⟩ :=
      mem_tasks_act hp.wellFormed ht
    · exact closed_act (ih ht) a
    · obtain ⟨s', rfl⟩ := advance_eq_waits_shutdown hadvance
      exact closed_act (ih hu) _
    · obtain rfl := begin_eq_waits_shutdown hbegin
      exact closed_start_shutdown fun _ _ => ih
  | report _ ih => exact ih ht

theorem closers_of_open (hp : p.Reached) (hopen : p.closed = false) : p.closers = [] := by
  refine List.filterMap_eq_nil_iff.mpr fun x hx => ?_
  obtain ⟨id, t⟩ := x
  cases t with
  | shutdown s => exact absurd (hp.closed_of_mem hx) (by simp [hopen])
  | _ => rfl

/-- In a pool that is open no shutdown has begun. -/
theorem course_of_open (hp : p.Reached) (hopen : p.closed = false) : p.Course p.closers := by
  induction hp with
  | create hcreate => exact course_of_create hcreate
  | @act p a hp _ ih =>
    have hbefore : p.closed = false := by
      cases hclosed : p.closed with
      | false => rfl
      | true => exact absurd (closed_act hclosed a) (by simp [hopen])
    exact (steps_act hp.wellFormed (ih hbefore) a).course
  | @report p hp _ =>
    have hnone : p.takeJournal.1.closers = [] := hp.closers_of_open hopen
    rw [hnone]
    exact .opened hopen ⟨fun i hi => absurd hi (Nat.not_lt_zero i), rfl⟩

/-- A shutdown with nobody else around leaves the pool closed. -/
theorem closed_of_shutdown (hp : p.Reached) (serve : Service σ) (s : σ) :
    (p.shutdownAlone serve s).2.closed = true := by
  have hstart := closed_start_shutdown fun _ _ => hp.closed_of_mem
  change (Pool.perform serve s p .shutdown).2.1.closed = true
  unfold Pool.perform
  rcases hq : p.start .shutdown with ⟨q, id | a⟩ <;> rw [hq] at hstart
  · obtain ⟨as, -, hafter, -⟩ := carries_carry serve id q.effort s q
    exact hafter ▸ closed_after hstart as
  · exact hstart

end Reached

end Closed

end QuorumPool.Pool
