import QuorumPool.Proofs.GetEffort
import QuorumPool.Proofs.Restored

namespace QuorumPool

variable {C : Client} {α : Type}

namespace Pool

variable {p q r : Pool} {lent : Option ConnId} {P Q : Nat → Prop} {σ : Type}

/-- Nothing is lent before the step that lends. -/
theorem Lends.after (hqr : q.Lends Q r lent) (hpq : p.Lends P q .none) : p.Lends Q r lent := by
  have hsame (d : ConnId) : q.isLent d = p.isLent d := by simpa using hpq.isLent d
  exact ⟨fun d => by rw [← hsame, hqr.isLent], fun d hd => hsame d ▸ hqr.fresh d hd, hqr.home⟩

end Pool

namespace RedisPool

variable {rp : RedisPool C} {s : Scene C} {c : ConnId} {call : Call}

section Outcome

variable {rq rq' : RedisPool C} {s' s'' : Scene C} {command : C.Command}
  {read : C.Reply → Except RedisError α}

end Outcome

end RedisPool

namespace Traffic

variable {t u : Traffic C} {D : ConnId → Prop} {ds : List (Dealing C)} {id : TaskId} {call : Call}

/-- What a get with nobody else around makes of a pool at work. -/
structure Gets (t : Traffic C) (D : ConnId → Prop) (u : Traffic C)
    (result : Except PoolError ConnId) : Prop where
  sound : u.Sound D
  run : ∃ as, t.pool.Runs as ∧ u.pool = t.pool.after as
  lends : t.pool.Lends (fun _ => True) u.pool result.toOption

theorem Gets.isLent {c : ConnId} (hgets : t.Gets D u (.ok c)) : u.pool.isLent c = true := by
  rw [hgets.lends.isLent]
  simp [Except.toOption]

namespace Sound

section Get

variable {a : Action} {v : Traffic C} {result : Except PoolError ConnId}

theorem lends (ht : t.Sound D) (hput : a.isPut = false) (hact : u.pool = t.pool.act a) :
    t.pool.Lends (fun _ => True) u.pool (t.pool.lends? a) := by
  rw [hact]
  exact (Pool.lends_act ht.wellFormed ht.conserved hput).congr rfl rfl fun _ _ => trivial

end Get

/-- What is lent and what is in flight as before has the slots as before. -/
theorem restored (ht : t.Sound D) (hslots : t.pool.Slotted .free t.pool.held) {as : List Action}
    (hruns : t.pool.Runs as) (htasks : (t.pool.after as).tasks = t.pool.tasks)
    (hlent : ∀ c, (t.pool.after as).isLent c = t.pool.isLent c) {p q : Pool}
    (hp : t.pool.Echoes p) (hq : (t.pool.after as).Echoes q) : p.Restored q := by
  have hextends := (Pool.invariant_extends t.pool).after hruns ht.wellFormed (.refl _)
  have hafter := (Pool.invariant_slotted.after hruns ht.wellFormed ⟨ht.conserved, hslots⟩).2
  have hactive := hslots.active_congr hafter hextends (Pool.fixed_after hruns ht.wellFormed).2
    htasks hlent
  obtain ⟨_, _, rfl⟩ := hp
  obtain ⟨_, _, rfl⟩ := hq
  exact ⟨hactive, hlent, htasks⟩

/-- A fresh pool has no slot taken. -/
theorem slotted_of_create {s s' : Scene C} {name : String} {addresses : List String}
    {dialer : Dialer} {config : Config}
    (hcreate : RedisPool.create s name addresses dialer config = (s', .ok t.redis)) :
    t.pool.Slotted .free t.pool.held := by
  obtain ⟨p, hpool, hredis⟩ := RedisPool.exists_of_create hcreate
  have hslots := Pool.slotted_of_create hpool
  have hp : t.pool = { p with journal := [] } := congrArg RedisPool.pool hredis
  rw [hp]
  exact hslots.congr rfl rfl (fun _ => rfl) fun _ => rfl

end Sound

end Traffic

end QuorumPool
