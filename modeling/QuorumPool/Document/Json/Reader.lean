import QuorumPool.Document.Value
import QuorumPool.Text.Digits

namespace QuorumPool.Document.Json

/-- Drops the blanks at the front. -/
def skipBlanks (cs : List Char) : List Char :=
  cs.dropWhile fun c => c = ' ' || c = '\t' || c = '\n' || c = '\r'

/-- What the characters so far of a string leave open: nothing, an escape that has just begun, or
one by code of which digits are missing. A first half of a surrogate pair waits for its second. -/
inductive Opening where
  | plain
  | escape (high : Option Nat)
  | code (left value : Nat) (high : Option Nat)
  | second (high : Nat)

/-- The character that a short escape stands for. -/
def shortEscape? : Char → Option Char
  | '"' => some '"'
  | '\\' => some '\\'
  | '/' => some '/'
  | 'b' => some '\x08'
  | 'f' => some '\x0c'
  | 'n' => some '\n'
  | 'r' => some '\r'
  | 't' => some '\t'
  | _ => none

/-- Puts a character in front of what was read after it. -/
def push (c : Char) (result : Option (List Char × List Char)) : Option (List Char × List Char) :=
  result.map fun (content, rest) => (c :: content, rest)

/-- The content of a string after its opening quote, and what follows the closing one. -/
def string? : Opening → List Char → Option (List Char × List Char)
  | _, [] => none
  | .plain, '"' :: rest => some ([], rest)
  | .plain, '\\' :: rest => string? (.escape none) rest
  | .plain, c :: rest => if c.toNat < 0x20 then none else push c (string? .plain rest)
  | .escape high, 'u' :: rest => string? (.code 4 0 high) rest
  | .escape none, c :: rest => (shortEscape? c).bind fun c => push c (string? .plain rest)
  | .escape (some _), _ => none
  | .second high, '\\' :: rest => string? (.escape (some high)) rest
  | .second _, _ => none
  | .code left value high, c :: rest =>
    match Text.digit? c with
    | none => none
    | some d =>
      let value := value * 16 + d
      if left ≠ 1 then string? (.code (left - 1) value high) rest
      else match high with
        | some high =>
          if 0xDC00 ≤ value ∧ value < 0xE000 then
            let code := 0x10000 + (high - 0xD800) * 0x400 + (value - 0xDC00)
            push (Char.ofNat code) (string? .plain rest)
          else none
        | none =>
          if 0xD800 ≤ value ∧ value < 0xDC00 then string? (.second value) rest
          else (Text.char? value).bind fun c => push c (string? .plain rest)

/-- Digits at the front, and what follows them. -/
def digits (cs : List Char) : List Char × List Char :=
  (cs.takeWhile Text.isDigit, cs.dropWhile Text.isDigit)

/-- The fraction's digits after a point; none where there is no point. -/
def fraction? : List Char → Option (List Char × List Char)
  | '.' :: rest =>
    match digits rest with
    | ([], _) => none
    | (ds, rest) => some (ds, rest)
  | cs => some ([], cs)

/-- The exponent, zero where there is none; the flag tells whether there is one. -/
def exponent? : List Char → Option (Bool × Int × List Char)
  | e :: rest =>
    if e = 'e' ∨ e = 'E' then
      let (negative, rest) := match rest with
        | '-' :: rest => (true, rest)
        | '+' :: rest => (false, rest)
        | rest => (false, rest)
      match digits rest with
      | ([], _) => none
      | (ds, rest) =>
        let n : Int := Text.number 10 ds
        some (true, if negative then -n else n, rest)
    else some (false, 0, e :: rest)
  | [] => some (false, 0, [])

/-- A whole number as a value: an integer if 64 bits hold it, signed or unsigned, and else the
nearest double. -/
def whole (negative : Bool) (n : Nat) : Value :=
  if negative then
    if 0 < n ∧ n ≤ Nat.pow 2 63 then .integer (-n) else .float (Binary64.ofDecimal true n 0)
  else if n < Nat.pow 2 64 then .integer n
  else .float (Binary64.ofDecimal false n 0)

/-- A number without its sign. -/
def magnitude? (negative : Bool) (cs : List Char) : Option (Value × List Char) := do
  let (ds, rest) ← match cs with
    | '0' :: rest => some (['0'], rest)
    | cs => match digits cs with
      | ([], _) => none
      | found => some found
  let (fs, rest) ← fraction? rest
  let (scaled, e, rest) ← exponent? rest
  if fs.isEmpty && !scaled then
    some (whole negative (Text.number 10 ds), rest)
  else
    let x := Binary64.ofDecimal negative (Text.number 10 (ds ++ fs)) (e - fs.length)
    if x.magnitude = Binary64.infinite then none else some (.float x, rest)

def number? : List Char → Option (Value × List Char)
  | '-' :: rest => magnitude? true rest
  | cs => magnitude? false cs

mutual

/-- A value after blanks. Every call has one less of `fuel`. -/
def value? : (fuel : Nat) → List Char → Option (Value × List Char)
  | 0, _ => none
  | fuel + 1, cs =>
    match skipBlanks cs with
    | '"' :: rest => (string? .plain rest).map fun (s, rest) => (.string (String.ofList s), rest)
    | '[' :: rest =>
      match skipBlanks rest with
      | ']' :: rest => some (.array [], rest)
      | rest => (items? fuel rest).map fun (items, rest) => (.array items, rest)
    | '\x7b' :: rest =>
      match skipBlanks rest with
      | '\x7d' :: rest => some (.table [], rest)
      | rest => (entries? fuel rest).map fun (entries, rest) =>
          (.table (Value.sortEntries entries), rest)
    | 'n' :: 'u' :: 'l' :: 'l' :: rest => some (.null, rest)
    | 't' :: 'r' :: 'u' :: 'e' :: rest => some (.bool true, rest)
    | 'f' :: 'a' :: 'l' :: 's' :: 'e' :: rest => some (.bool false, rest)
    | cs => number? cs

/-- The items of an array up to its end. -/
def items? : (fuel : Nat) → List Char → Option (List Value × List Char)
  | 0, _ => none
  | fuel + 1, cs => do
    let (item, rest) ← value? fuel cs
    match skipBlanks rest with
    | ']' :: rest => some ([item], rest)
    | ',' :: rest =>
      let (items, rest) ← items? fuel rest
      some (item :: items, rest)
    | _ => none

/-- The entries of an object up to its end, in the order in which they are written. -/
def entries? : (fuel : Nat) → List Char → Option (List (String × Value) × List Char)
  | 0, _ => none
  | fuel + 1, cs =>
    match skipBlanks cs with
    | '"' :: rest => do
      let (key, rest) ← string? .plain rest
      match skipBlanks rest with
      | ':' :: rest =>
        let (value, rest) ← value? fuel rest
        let entry := (String.ofList key, value)
        match skipBlanks rest with
        | '\x7d' :: rest => some ([entry], rest)
        | ',' :: rest =>
          let (entries, rest) ← entries? fuel rest
          some (entry :: entries, rest)
        | _ => none
      | _ => none
    | _ => none

end

/-- The value that a JSON text writes. -/
def read? (text : String) : Option Value :=
  let cs := text.toList
  match value? (cs.length + 1) cs with
  | some (value, rest) => if (skipBlanks rest).isEmpty then some value else none
  | none => none

end QuorumPool.Document.Json
