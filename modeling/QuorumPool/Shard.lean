import QuorumPool.Config
import QuorumPool.Stats

namespace QuorumPool

/-- A connection dialed for lending: connections are numbered in the order in which the pool
dialed them. -/
abbrev ConnId := Nat

/-- One backend's share of a pool. -/
structure Shard where
  address : String
  /-- The connections that wait for a get, the one returned first at the head. -/
  idle : List ConnId := []
  /-- Connections lent, together with the dials under way. -/
  active : Nat := 0
  available : Bool := true
  closed : Bool := false
  /-- Failures since the last success. They are counted without a bound; a counter of 32 bits says
  the same as long as it does not overflow. -/
  fails : Nat := 0
  tally : Tally := {}
deriving DecidableEq, Repr, Inhabited

namespace Shard

/-- Whether a returned connection may wait here for the next get. -/
def acceptsIdle (s : Shard) : Bool := s.available && !s.closed

/-- Whether another connection may be dialed under the limit `maxActive`, where zero is none. -/
def hasRoom (s : Shard) (maxActive : Nat) : Bool := maxActive == 0 || s.active < maxActive

def isSuspect (s : Shard) (maxFails : Nat) : Bool := maxFails ≤ s.fails

def occupySlot (s : Shard) : Shard := { s with active := s.active + 1 }

/-- Gives a slot back; a count of zero stays zero. -/
def releaseSlot (s : Shard) : Shard := { s with active := s.active - 1 }

def count (s : Shard) (f : Tally → Tally) : Shard := { s with tally := f s.tally }

def stats (s : Shard) : ShardStats :=
  { shard := s.address, available := s.available, numActive := s.active,
    numIdle := s.idle.length, tally := s.tally }

end Shard

end QuorumPool
