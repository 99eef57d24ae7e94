
namespace QuorumPool

/-- A fraction of the shards. -/
structure Quorum where
  numerator : Nat
  denominator : Nat
deriving DecidableEq, Repr

namespace Quorum

/-- Two thirds of the shards. -/
def twoThirds : Quorum := ⟨2, 3⟩

/-- No floor: any shard may be demoted while one is available. -/
def none : Quorum := ⟨0, 1⟩

/-- Whether a shard may be demoted while `available` of `total` shards are available: their share
lies strictly above the fraction. The products are exact; where a program takes them in machine
words, this is what it decides as long as neither overflows. -/
def permitsDemotion (q : Quorum) (available total : Nat) : Bool :=
  available * q.denominator > total * q.numerator

end Quorum

end QuorumPool
