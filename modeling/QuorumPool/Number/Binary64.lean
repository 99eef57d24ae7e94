
namespace QuorumPool

/-- A double: its sign, and the 63 bits of its magnitude. -/
structure Binary64 where
  negative : Bool
  magnitude : Nat
deriving DecidableEq, Repr

namespace Binary64

/-- The magnitude of infinity; what lies above it is not a number. -/
def infinite : Nat := 0x7FF * Nat.pow 2 52

/-- The whole number nearest to `num / den`, the even one of two. -/
def roundDiv (num den : Nat) : Nat :=
  let quotient := num / den
  let rest := num % den
  if 2 * rest > den || (2 * rest == den && quotient % 2 == 1) then quotient + 1 else quotient

/-- The ratio `num / den` divided by `2 ^ exponent`, as a numerator and a denominator. -/
def scaled (num den : Nat) (exponent : Int) : Nat × Nat :=
  (num * Nat.pow 2 (-exponent).toNat, den * Nat.pow 2 exponent.toNat)

/-- The exponent for which the significand of `num / den` fills 53 bits, or the least exponent
that a double has. -/
def exponentOf (num den : Nat) : Int :=
  let guess : Int := (Nat.log2 num : Int) - (Nat.log2 den : Int) - 52
  let (n, d) := scaled num den guess
  max (-1074) (if n < d * Nat.pow 2 52 then guess - 1 else guess)

/-- The magnitude of the double nearest to `num / den`, for a positive `den`. -/
def magnitudeOf (num den : Nat) : Nat :=
  if num = 0 then 0
  else
    let exponent := exponentOf num den
    let (n, d) := scaled num den exponent
    let significand := roundDiv n d
    let biased := (exponent + 1074).toNat
    min infinite (biased * Nat.pow 2 52 + significand)

/-- The double nearest to `num / den`. -/
def ofRatio (num den : Nat) : Binary64 := ⟨false, magnitudeOf num den⟩

/-- The significand and the exponent: a finite magnitude stands for the first times two to the
second. -/
def parts (magnitude : Nat) : Nat × Int :=
  let biased : Nat := magnitude / Nat.pow 2 52
  let fraction : Nat := magnitude % Nat.pow 2 52
  if biased = 0 then (fraction, -1074) else (fraction + Nat.pow 2 52, (biased : Int) - 1075)

/-- A finite magnitude as a ratio. -/
def ratioOf (magnitude : Nat) : Nat × Nat :=
  let (significand, exponent) := parts magnitude
  (significand * Nat.pow 2 exponent.toNat, Nat.pow 2 (-exponent).toNat)

/-- The double nearest to the quotient of two doubles given by their magnitudes. -/
def quotient (a b : Nat) : Binary64 :=
  let (n, d) := ratioOf a
  let (n', d') := ratioOf b
  ofRatio (n * d') (d * n')

/-- The 64 bits as sixteen hexadecimal digits. -/
def bits (x : Binary64) : String :=
  let digits := Nat.toDigits 16 (x.magnitude + if x.negative then Nat.pow 2 63 else 0)
  String.ofList (List.replicate (16 - digits.length) '0' ++ digits)

/-- The double written as `digits` times ten to the `exponent`. A decimal far outside of what a
double reaches is decided by its size alone. -/
def ofDecimal (negative : Bool) (digits : Nat) (exponent : Int) : Binary64 :=
  let size := exponent + (Nat.toDigits 10 digits).length
  if digits = 0 ∨ size < -400 then ⟨negative, 0⟩
  else if 400 < size then ⟨negative, infinite⟩
  else ⟨negative, magnitudeOf (digits * Nat.pow 10 exponent.toNat) (Nat.pow 10 (-exponent).toNat)⟩

end Binary64

end QuorumPool
