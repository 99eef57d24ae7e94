import QuorumPool.Shard

namespace QuorumPool

/-- Names a task in flight. -/
abbrev TaskId := Nat

/-- The connection that a call to the factory is about: one dialed for lending, the one that a
health check dialed for itself, or a returned one that belongs to no live shard. -/
inductive Target where
  | own (conn : ConnId)
  | probe
  | stray
deriving DecidableEq, Repr

/-- What is asked of the factory. -/
inductive Call where
  /-- Dial the shard's address for lending. -/
  | dial (shard : Nat) (address : String)
  /-- Dial the address for a health check. -/
  | probe (address : String)
  | validate (target : Target)
  | close (target : Target)
deriving DecidableEq, Repr

/-- What the factory says to a call. -/
abbrev Reply := Except PoolError Unit

/-- How far an activity has come: it waits in a state, or it has its result. -/
inductive Progress (σ α : Type) where
  | waits (state : σ)
  | done (result : α)
deriving DecidableEq, Repr

/-- Carries a wait and a result over to the activity that this one is part of. -/
def Progress.map {σ α τ β : Type} (f : σ → τ) (g : α → β) : Progress σ α → Progress τ β
  | waits s => waits (f s)
  | done a => done (g a)

/-- Where a get waits at the shard it visits. -/
inductive Borrowing where
  /-- An idle connection that will not be lent is being closed. -/
  | discarding (conn : ConnId)
  /-- The connection was taken from the idle queue and is being validated. -/
  | validating (conn : ConnId)
  | dialing
deriving DecidableEq, Repr

/-- A get on the pool: the rotation it started from, the visits it has behind it, and where it
waits at the present one. -/
structure Getting where
  start : Nat
  attempt : Nat
  borrowing : Borrowing
deriving DecidableEq, Repr

/-- Where a health check waits. While it closes its connection it keeps what validation said. -/
inductive Checking where
  | dialing
  | validating
  | closing (failure : Option PoolError)
deriving DecidableEq, Repr

/-- A health check of an address, in its attempt number `attempt`. -/
structure Check where
  address : String
  attempt : Nat
  checking : Checking
deriving DecidableEq, Repr

/-- A health verdict on a shard: yet to be decided, or demoting with one idle connection being
closed and `drained` closed before it. -/
inductive Verdict where
  | deciding (shard : Nat) (healthy : Bool)
  | draining (shard : Nat) (conn : ConnId) (drained : Nat)
deriving DecidableEq, Repr

def Verdict.shard : Verdict → Nat
  | deciding i _ => i
  | draining i _ _ => i

/-- A check of a shard and the verdict that follows it. -/
inductive Inspection where
  | checking (shard : Nat) (check : Check)
  | judging (verdict : Verdict)
deriving DecidableEq, Repr

def Inspection.shard : Inspection → Nat
  | checking i _ => i
  | judging v => v.shard

/-- What the health checker is about: one suspect shard, or a sweep over all that need a check. -/
inductive Errand where
  | recheck (inspection : Inspection)
  | sweep (inspection : Inspection)
deriving DecidableEq, Repr

def Errand.inspection : Errand → Inspection
  | recheck i => i
  | sweep i => i

/-- The health checker. It knows when the next sweep is due from its first turn on. -/
inductive Checker where
  | spawned
  | waiting (due : Duration)
  | working (due : Duration) (errand : Errand)
  | stopped
deriving DecidableEq, Repr

/-- Where a shutdown waits: behind an earlier one, for the health checker to stop, or for an idle
connection to close. -/
inductive Closing where
  | queued
  | joining
  | draining (shard : Nat) (conn : ConnId) (drained : Nat)
deriving DecidableEq, Repr

/-- A task in flight. It gives way to others only while it waits. -/
inductive Task where
  | get (getting : Getting)
  /-- A return whose connection is being closed. -/
  | put (conn : ConnId)
  /-- The return of a connection that belongs to no live shard. -/
  | strayPut
  | verdict (verdict : Verdict)
  | check (check : Check)
  | shutdown (closing : Closing)
deriving DecidableEq, Repr

/-- What a pool is asked to do. -/
inductive Request where
  | get
  | put (conn : ConnId) (broken : Bool)
  | strayPut
  | mark (shard : Nat) (healthy : Bool)
  | check (address : String)
  | shutdown
deriving DecidableEq, Repr

/-- What a finished task says. -/
inductive Answer where
  | lent (conn : ConnId)
  | returned
  | refused (error : PoolError)
  /-- Whether the verdict changed the shard's availability. -/
  | changed (flipped : Bool)
  | healthy (passed : Bool)
  | shutDown
deriving DecidableEq, Repr

namespace Check

def call (c : Check) : Call :=
  match c.checking with
  | .dialing => .probe c.address
  | .validating => .validate .probe
  | .closing _ => .close .probe

end Check

namespace Verdict

/-- A verdict yet to be decided waits for its turn only. -/
def call? : Verdict → Option Call
  | deciding .. => none
  | draining _ c _ => some (.close (.own c))

end Verdict

namespace Inspection

def call? : Inspection → Option Call
  | checking _ c => some c.call
  | judging v => v.call?

end Inspection

end QuorumPool
