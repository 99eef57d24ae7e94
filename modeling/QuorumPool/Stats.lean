import QuorumPool.Number.Binary64

namespace QuorumPool

/-- The events a shard has counted since its last snapshot, which has set every count to zero. -/
structure Tally where
  gets : Nat := 0
  puts : Nat := 0
  broken : Nat := 0
  dials : Nat := 0
  dialErrors : Nat := 0
  evictions : Nat := 0
  closes : Nat := 0
deriving DecidableEq, Repr, Inhabited

namespace Tally

def countGet (t : Tally) : Tally := { t with gets := t.gets + 1 }

/-- A return, which may be one of a broken connection. -/
def countPut (t : Tally) (broken : Bool) : Tally :=
  { t with puts := t.puts + 1, broken := t.broken + if broken then 1 else 0 }

def countDial (t : Tally) : Tally := { t with dials := t.dials + 1 }

def countDialError (t : Tally) : Tally := { t with dialErrors := t.dialErrors + 1 }

def countEviction (t : Tally) : Tally := { t with evictions := t.evictions + 1 }

def countClose (t : Tally) : Tally := { t with closes := t.closes + 1 }

end Tally

/-- A snapshot of one shard. -/
structure ShardStats where
  shard : String
  available : Bool
  numActive : Nat
  numIdle : Nat
  tally : Tally
deriving DecidableEq, Repr

/-- The share of the gets that needed no dial, zero when there were none. -/
def ShardStats.reuseRatio (s : ShardStats) : Binary64 :=
  if s.tally.gets = 0 then ⟨false, 0⟩
  else
    Binary64.quotient (Binary64.magnitudeOf (s.tally.gets - s.tally.dials) 1)
      (Binary64.magnitudeOf s.tally.gets 1)

end QuorumPool
