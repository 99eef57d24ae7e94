import QuorumPool.Redis.Handshake

namespace QuorumPool

/-- What leaves a connection in doubt: a failure of the connection itself, a connection that the
other side has given up, or a reply that took too long. -/
def Failure.InDoubt : Failure → Prop
  | .timeout _ => True
  | .redis e => e.isIo = true ∨ e.isTimeout = true ∨ e.isDropped = true
  | _ => False

/-- Whether a request whose result is this leaves its connection in doubt. -/
def Doubts {α : Type} (result : Except Failure α) : Prop := ∃ e, result = .error e ∧ e.InDoubt

variable {C : Client}

theorem not_doubts_ok {α : Type} (a : α) : ¬Doubts (.ok a) := by
  rintro ⟨e, h, -⟩
  cases h

theorem doubts_error_iff {α : Type} {e : Failure} :
    Doubts (.error e : Except Failure α) ↔ e.InDoubt :=
  ⟨fun ⟨_, h, hdoubt⟩ => Except.error.inj h ▸ hdoubt, fun h => ⟨e, rfl, h⟩⟩

theorem RedisError.isFatal_iff {e : RedisError} :
    e.isFatal = true ↔ (Failure.redis e).InDoubt := by
  simp [isFatal, Failure.InDoubt, or_assoc]

namespace Link

/-- A connection is marked when a query leaves it in doubt, and the mark stays. -/
theorem broken_query {α : Type} (k : Link C) (n : C.Network) (command : C.Command)
    (read : C.Reply → Except RedisError α) :
    (k.query n command read).2.1.broken = true ↔
      k.broken = true ∨ Doubts (k.query n command read).2.2 := by
  unfold query
  split
  · simp [doubts_error_iff, Failure.InDoubt]
  split
  · simp [doubts_error_iff, Failure.InDoubt]
  split
  · simp [not_doubts_ok]
  · rw [doubts_error_iff, ← RedisError.isFatal_iff, Bool.or_eq_true]

/-- A query leaves a connection as it is but for the mark. -/
theorem link_query {α : Type} (k : Link C) (n : C.Network) (command : C.Command)
    (read : C.Reply → Except RedisError α) :
    ∃ broken, (k.query n command read).2.1 = { k with broken } := by
  unfold query
  split
  · exact ⟨k.broken, rfl⟩
  split
  · exact ⟨true, rfl⟩
  split
  · exact ⟨k.broken, rfl⟩
  · exact ⟨_, rfl⟩

/-- A query that succeeds leaves its connection as it is. -/
theorem query_eq_ok {α : Type} {k k' : Link C} {n m : C.Network} {command : C.Command}
    {read : C.Reply → Except RedisError α} {a : α}
    (hquery : k.query n command read = (m, k', .ok a)) : k' = k := by
  unfold query at hquery
  split at hquery
  · cases hquery
  split at hquery
  · cases hquery
  split at hquery <;> cases hquery
  rfl

theorem broken_close (k : Link C) (n : C.Network) : (k.close n).2.broken = k.broken := by
  unfold close
  split <;> rfl

theorem closed_close (k : Link C) (n : C.Network) : (k.close n).2.closed = true := by
  unfold close closed
  split
  · rename_i hhandle
    rw [hhandle]
    rfl
  · rfl

theorem link_validate (k : Link C) (n : C.Network) :
    ∃ broken, (k.validate n).2.1 = { k with broken } := by
  obtain ⟨broken, hquery⟩ := k.link_query n (C.command ["PING"]) C.text
  refine ⟨broken, ?_⟩
  rw [← hquery]
  unfold validate
  split <;> rename_i heq
  · rw [heq]
  · split <;> rw [heq]

/-- A connection that answers a ping is as before. -/
theorem validate_eq_ok {k k' : Link C} {n m : C.Network}
    (hvalid : k.validate n = (m, k', .ok ())) : k' = k := by
  unfold validate at hvalid
  split at hvalid <;> rename_i hquery
  · cases hvalid
  · split at hvalid <;> cases hvalid
    exact query_eq_ok hquery

end Link

namespace Dialer

/-- Greetings that are accepted leave a connection as it is. -/
theorem greet_eq_ok {k k' : Link C} {n m : C.Network} {greetings : List (List String)}
    (hgreet : greet k n greetings = (m, k', .ok ())) : k' = k := by
  induction greetings generalizing k n with
  | nil =>
    cases hgreet
    rfl
  | cons words rest ih =>
    unfold greet at hgreet
    split at hgreet <;> rename_i hquery
    · exact (ih hgreet).trans (Link.query_eq_ok hquery)
    · cases hgreet

/-- A connection that is dialed is in no doubt. -/
theorem dial_eq_ok {d : Dialer} {n m : C.Network} {address : String} {k : Link C}
    (hdial : d.dial n address = (m, .ok k)) :
    ∃ handle, k = { address, handle := some handle, limit := d.responseTimeout } := by
  unfold dial at hdial
  split at hdial
  · cases hdial
  split at hdial
  · cases hdial
  · cases hdial
  · rename_i handle _
    split at hdial <;> rename_i hgreet
    · cases hdial
      exact ⟨handle, greet_eq_ok hgreet⟩
    · cases hdial

end Dialer

end QuorumPool
