import QuorumPool.Pool.Run

namespace QuorumPool

/-- One thing that happens to a pool. -/
inductive Action where
  | start (request : Request)
  /-- A task in flight goes on, with the factory's reply if it waits for one. -/
  | resume (id : TaskId) (reply : Reply)
  /-- The health checker has a turn in which no call of it is answered. -/
  | turn
  | resumeChecker (reply : Reply)
  | setTime (now : Duration)
  | takeStats
  | takeShardStats (shard : Nat)
  | abandon
deriving Repr

namespace Pool

/-- The pool after the action. -/
def act (p : Pool) : Action → Pool
  | .start request => (p.start request).1
  | .resume id reply => (p.resume id reply).1
  | .turn => p.turn
  | .resumeChecker reply => p.resumeChecker reply
  | .setTime now => p.setTime now
  | .takeStats => p.takeStats.1
  | .takeShardStats i => (p.takeShardStats i).1
  | .abandon => p.abandon

/-- Whether the action may come next. A task goes on when the factory replies to its call or its
turn has come, and time never runs back; everything else may happen at any time. -/
def Admits (p : Pool) : Action → Prop
  | .resume id _ => (p.call? id).isSome ∨ p.taskReady id
  | .setTime now => p.now ≤ now
  | _ => True

instance (p : Pool) : (a : Action) → Decidable (p.Admits a)
  | .resume id _ => inferInstanceAs (Decidable ((p.call? id).isSome ∨ p.taskReady id))
  | .setTime now => inferInstanceAs (Decidable (p.now ≤ now))
  | .start _ | .turn | .resumeChecker _ | .takeStats | .takeShardStats _ | .abandon =>
    inferInstanceAs (Decidable True)

/-- The pool after the actions, in their order. -/
def after (p : Pool) : List Action → Pool
  | [] => p
  | a :: as => (p.act a).after as

/-- What the actions bring, one after the other. -/
def along {α : Type} (f : Pool → Action → List α) (p : Pool) : List Action → List α
  | [] => []
  | a :: as => f p a ++ along f (p.act a) as

/-- Whether the actions are a run: each of them may come next when its turn comes. -/
def Runs (p : Pool) : List Action → Prop
  | [] => True
  | a :: as => p.Admits a ∧ (p.act a).Runs as

instance decidableRuns (p : Pool) : (as : List Action) → Decidable (p.Runs as)
  | [] => inferInstanceAs (Decidable True)
  | a :: as =>
    have := decidableRuns (p.act a) as
    inferInstanceAs (Decidable (p.Admits a ∧ (p.act a).Runs as))

theorem after_append (p : Pool) (as bs : List Action) :
    p.after (as ++ bs) = (p.after as).after bs := by
  induction as generalizing p with
  | nil => rfl
  | cons a as ih => exact ih (p.act a)

theorem along_append {α : Type} (f : Pool → Action → List α) (p : Pool) (as bs : List Action) :
    along f p (as ++ bs) = along f p as ++ along f (p.after as) bs := by
  induction as generalizing p with
  | nil => rfl
  | cons a as ih => simp only [List.cons_append, along, after, ih, List.append_assoc]

theorem along_concat {α : Type} (f : Pool → Action → List α) (p : Pool) (as : List Action)
    (a : Action) : along f p (as ++ [a]) = along f p as ++ f (p.after as) a := by
  simp [along_append, along]

theorem after_concat (p : Pool) (as : List Action) (a : Action) :
    p.after (as ++ [a]) = (p.after as).act a := by
  rw [after_append]
  rfl

theorem after_append_cons (p : Pool) (as : List Action) (a : Action) (bs : List Action) :
    p.after (as ++ a :: bs) = ((p.after as).act a).after bs := by
  rw [after_append]
  rfl

theorem runs_append {p : Pool} {as bs : List Action} :
    p.Runs (as ++ bs) ↔ p.Runs as ∧ (p.after as).Runs bs := by
  induction as generalizing p with
  | nil => simp [Runs, after]
  | cons a as ih => simp only [List.cons_append, Runs, after, ih, and_assoc]

/-- What every admitted action keeps, every run keeps. -/
theorem Runs.keeps {I : Pool → Prop} (hact : ∀ p a, p.Admits a → I p → I (p.act a))
    {p : Pool} {as : List Action} (hruns : p.Runs as) (hp : I p) : I (p.after as) := by
  induction as generalizing p with
  | nil => exact hp
  | cons a as ih =>
    obtain ⟨hadmits, hruns⟩ := hruns
    exact ih hruns (hact p a hadmits hp)

end Pool

end QuorumPool
