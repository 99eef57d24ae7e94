import QuorumPool.Document.Value
import QuorumPool.Text.Blank
import QuorumPool.Text.Digits

namespace QuorumPool.Document.Toml

/-- The digits of a number in which an underscore may stand between any two; none when it stands
elsewhere, when there are no digits, or when something is no digit of the base. -/
def separated? (base : Nat) (cs : List Char) : Option (List Char) :=
  let groups := Text.splitOn '_' cs
  if groups.all (fun g => !g.isEmpty && g.all fun c => (Text.digitIn? base c).isSome)
  then some groups.flatten
  else none

/-- A sign and what follows it. -/
def sign : List Char → Bool × List Char
  | '-' :: rest => (true, rest)
  | '+' :: rest => (false, rest)
  | cs => (false, cs)

/-- The digits of a decimal whole number, which has no superfluous zero in front. -/
def decimal? (cs : List Char) : Option (List Char) :=
  match separated? 10 cs with
  | some ['0'] => some ['0']
  | some ('0' :: _) => none
  | other => other

def integer? (cs : List Char) : Option Int :=
  match cs with
  | '0' :: 'x' :: rest => (separated? 16 rest).map fun ds => (Text.number 16 ds : Int)
  | '0' :: 'o' :: rest => (separated? 8 rest).map fun ds => (Text.number 8 ds : Int)
  | '0' :: 'b' :: rest => (separated? 2 rest).map fun ds => (Text.number 2 ds : Int)
  | cs =>
    let (negative, rest) := sign cs
    (decimal? rest).map fun ds =>
      let n : Int := Text.number 10 ds
      if negative then -n else n

/-- Splits at the first character that `p` picks, which is dropped. -/
def cutAt (p : Char → Bool) (cs : List Char) : List Char × Option (List Char) :=
  match cs.dropWhile (!p ·) with
  | [] => (cs, none)
  | _ :: rest => (cs.takeWhile (!p ·), some rest)

/-- A float with a fraction, an exponent or both. -/
def finite? (negative : Bool) (cs : List Char) : Option Value := do
  let (mantissa, exponent) := cutAt (fun c => c = 'e' || c = 'E') cs
  let (wholePart, fraction) := cutAt (· = '.') mantissa
  let ds ← decimal? wholePart
  let fs ← match fraction with
    | none => some []
    | some fs => separated? 10 fs
  let e ← match exponent with
    | none => some 0
    | some cs =>
      let (negative, rest) := sign cs
      (separated? 10 rest).map fun ds =>
        let n : Int := Text.number 10 ds
        if negative then -n else n
  if fraction.isNone && exponent.isNone then none
  else
    let x := Binary64.ofDecimal negative (Text.number 10 (ds ++ fs)) (e - fs.length)
    some (if x.magnitude = Binary64.infinite then .unrepresentable else .float x)

def float? (cs : List Char) : Option Value :=
  let (negative, rest) := sign cs
  match rest with
  | ['i', 'n', 'f'] => some (.float ⟨negative, Binary64.infinite⟩)
  | ['n', 'a', 'n'] => some (.float ⟨negative, Binary64.infinite + 1⟩)
  | rest => finite? negative rest

/-- The number that exactly `n` digits write. -/
def fixed? (n : Nat) (cs : List Char) : Option Nat :=
  if cs.length = n ∧ cs.all Text.isDigit then some (Text.number 10 cs) else none

def isLeapYear (year : Nat) : Bool :=
  year % 4 = 0 && (year % 100 ≠ 0 || year % 400 = 0)

def daysIn (year month : Nat) : Nat :=
  if month = 2 then (if isLeapYear year then 29 else 28)
  else if month = 4 ∨ month = 6 ∨ month = 9 ∨ month = 11 then 30
  else 31

def isDate (cs : List Char) : Bool :=
  match Text.splitOn '-' cs with
  | [y, m, d] =>
    match fixed? 4 y, fixed? 2 m, fixed? 2 d with
    | some year, some month, some day =>
      1 ≤ month && month ≤ 12 && 1 ≤ day && day ≤ daysIn year month
    | _, _, _ => false
  | _ => false

/-- Whether two digits write a number of at most `top`. -/
def isUpTo (top : Nat) (cs : List Char) : Bool := (fixed? 2 cs).any (· ≤ top)

/-- Whether this is a minute's second, with or without a fraction. A leap second is one. -/
def isSecond (cs : List Char) : Bool :=
  match cutAt (· = '.') cs with
  | (second, none) => isUpTo 60 second
  | (second, some fraction) =>
    isUpTo 60 second && !fraction.isEmpty && fraction.all Text.isDigit

/-- A time of the day; the seconds may be left out. -/
def isTime (cs : List Char) : Bool :=
  match Text.splitOn ':' cs with
  | [h, m] => isUpTo 23 h && isUpTo 59 m
  | [h, m, s] => isUpTo 23 h && isUpTo 59 m && isSecond s
  | _ => false

/-- A time with an offset or without one. -/
def isOffsetTime (cs : List Char) : Bool :=
  match cutAt (fun c => c = 'Z' || c = 'z') cs with
  | (time, some []) => isTime time
  | (_, some _) => false
  | _ =>
    match cutAt (fun c => c = '+' || c = '-') cs with
    | (time, none) => isTime time
    | (time, some offset) =>
      isTime time &&
        match Text.splitOn ':' offset with
        | [h, m] => isUpTo 23 h && isUpTo 59 m
        | _ => false

def isMoment (cs : List Char) : Bool :=
  isDate cs || isTime cs
    || match cutAt (fun c => c = 'T' || c = 't' || c = ' ') cs with
      | (date, some time) => isDate date && isOffsetTime time
      | (_, none) => false

/-- The value that a word writes. -/
def scalar? (cs : List Char) : Option Value :=
  match cs with
  | ['t', 'r', 'u', 'e'] => some (.bool true)
  | ['f', 'a', 'l', 's', 'e'] => some (.bool false)
  | cs =>
    match integer? cs with
    | some i => some (.integer i)
    | none =>
      match float? cs with
      | some v => some v
      | none => if isMoment cs then some .moment else none

def isScalarChar (c : Char) : Bool :=
  c.isAlphanum || c = '_' || c = '-' || c = '+' || c = '.' || c = ':'

/-- The word at the front. A blank between a date and a time is part of it. -/
def word (cs : List Char) : List Char × List Char :=
  let first := cs.takeWhile isScalarChar
  match cs.dropWhile isScalarChar with
  | ' ' :: c :: rest =>
    if isDate first && Text.isDigit c then
      (first ++ ' ' :: (c :: rest).takeWhile isScalarChar, (c :: rest).dropWhile isScalarChar)
    else (first, ' ' :: c :: rest)
  | rest => (first, rest)

end QuorumPool.Document.Toml
