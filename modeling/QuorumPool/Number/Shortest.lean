import QuorumPool.Number.Binary64

namespace QuorumPool.Binary64

/-- The decimals that read back as a double, as bounds on a ratio with a common denominator. -/
structure Span where
  low : Nat
  value : Nat
  high : Nat
  denominator : Nat
  /-- Whether the bounds themselves read back as the double. -/
  closed : Bool

/-- The span of a finite magnitude. Below a power of two the neighbour is only half as far. -/
def spanOf (magnitude : Nat) : Span :=
  let (significand, exponent) := parts magnitude
  let up := Nat.pow 2 exponent.toNat
  let below := if significand = Nat.pow 2 52 && exponent > -1074 then 1 else 2
  { low := (4 * significand - below) * up
    value := 4 * significand * up
    high := (4 * significand + 2) * up
    denominator := 4 * Nat.pow 2 (-exponent).toNat
    closed := significand % 2 = 0 }

/-- Whether `n / d` reads back as the double. -/
def Span.holds (s : Span) (n d : Nat) : Bool :=
  let scaledLow := s.low * d
  let scaledHigh := s.high * d
  let point := n * s.denominator
  (scaledLow < point && point < scaledHigh)
    || (s.closed && (point == scaledLow || point == scaledHigh))

/-- The position of the first significant digit of `num / den`: the least `p` tried from below
with `num < den * 10 ^ p`, less one. -/
def leading (num den : Nat) : Nat → Int → Int
  | 0, p => p - 1
  | fuel + 1, p =>
    if num * Nat.pow 10 (-p).toNat < den * Nat.pow 10 p.toNat then p - 1 else leading num den fuel (p + 1)

/-- The better of the two neighbours of the double on the grid of multiples of ten to the
`position`. -/
def Span.neighbour (s : Span) (position : Int) : Option Nat :=
  let up := Nat.pow 10 position.toNat
  let down := Nat.pow 10 (-position).toNat
  let below := s.value * down / (s.denominator * up)
  let rest := s.value * down - below * (s.denominator * up)
  let fits := fun n => s.holds (n * up) down
  let nearerAbove := 2 * rest > s.denominator * up
    || (2 * rest == s.denominator * up && below % 2 == 1)
  match fits below, fits (below + 1) with
  | true, true => some (if nearerAbove then below + 1 else below)
  | true, false => some below
  | false, true => some (below + 1)
  | false, false => none

/-- Tries grids from one significant digit on. -/
def Span.search (s : Span) (first : Int) : Nat → Nat → Nat × Int
  | 0, length => (0, first + 1 - length)
  | fuel + 1, length =>
    let position := first + 1 - length
    match s.neighbour position with
    | some digits => (digits, position)
    | none => s.search first fuel (length + 1)

/-- The same decimal without zeros at the end of its digits. -/
def dropZeros : Nat → Nat → Int → Nat × Int
  | 0, digits, exponent => (digits, exponent)
  | fuel + 1, digits, exponent =>
    if digits % 10 = 0 then dropZeros fuel (digits / 10) (exponent + 1) else (digits, exponent)

/-- The shortest decimal of a finite positive magnitude: its digits, and the power of ten that
they are multiplied by. Of two that are equally short it is the nearer. -/
def shortest (magnitude : Nat) : Nat × Int :=
  let s := spanOf magnitude
  let (digits, exponent) := s.search (leading s.value s.denominator 700 (-330)) 17 1
  dropZeros 17 digits exponent

/-- The decimal in positional notation. -/
def positional (digits : Nat) (exponent : Int) : String :=
  let written := Nat.toDigits 10 digits
  if 0 ≤ exponent then String.ofList (written ++ List.replicate exponent.toNat '0')
  else
    let places := (-exponent).toNat
    let padded := List.replicate (places + 1 - written.length) '0' ++ written
    let whole := padded.length - places
    String.ofList (padded.take whole ++ ['.'] ++ padded.drop whole)

/-- How a double is written: always in positional notation, or with a power of ten where that would
have many zeros. -/
inductive Style where
  | positional | compact
deriving DecidableEq, Repr

/-- Whether a decimal is written in positional notation; `point` is the number of its digits before
the point, negative when zeros follow the point. -/
def Style.isPositional (style : Style) (point : Int) : Bool :=
  match style with
  | positional => true
  | compact => -5 < point && point ≤ 16

/-- The decimal as one digit before the point, times a power of ten. -/
def scientific (digits : Nat) (power : Int) : String :=
  let mantissa := match Nat.toDigits 10 digits with
    | first :: second :: rest => first :: '.' :: second :: rest
    | written => written
  String.ofList mantissa ++ "e" ++ toString power

/-- The double; what is written in positional notation has at least one place after the point. -/
def text (x : Binary64) (style : Style) : String :=
  if x.magnitude > infinite then "NaN"
  else
    let sign := if x.negative then "-" else ""
    if x.magnitude = infinite then sign ++ "inf"
    else if x.magnitude = 0 then sign ++ "0.0"
    else
      let (digits, exponent) := shortest x.magnitude
      let point := (Nat.toDigits 10 digits).length + exponent
      let written :=
        if style.isPositional point then
          positional digits exponent ++ if 0 ≤ exponent then ".0" else ""
        else scientific digits (point - 1)
      sign ++ written

end QuorumPool.Binary64
