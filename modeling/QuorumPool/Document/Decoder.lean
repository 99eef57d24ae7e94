import QuorumPool.Document.Misfit
import QuorumPool.Document.Value

namespace QuorumPool.Document

/-- A way to read a value, or to say what is wrong with it. -/
abbrev Decoder (α : Type) := Value → Except Misfit α

namespace Value

mutual

/-- Passes over a value, which has to be representable for that. -/
def skip : Value → Except Misfit Unit
  | .unrepresentable => throw .malformed
  | .integer i => if (Value.integer i).glimpse?.isSome then pure () else throw .malformed
  | .array items => skipItems items
  | .table entries => skipEntries entries
  | _ => pure ()

def skipItems : List Value → Except Misfit Unit
  | [] => pure ()
  | item :: items => do skip item; skipItems items

def skipEntries : List (String × Value) → Except Misfit Unit
  | [] => pure ()
  | (_, value) :: entries => do skip value; skipEntries entries

end

/-- The complaint that a value is of another type than expected. -/
def mistyped (v : Value) (expected : String) : Misfit :=
  match v.glimpse? with
  | some found => .invalidType found expected
  | none => .malformed

end Value

namespace Decoder

def bool : Decoder Bool
  | .bool b => pure b
  | v => throw (v.mistyped "a boolean")

/-- A text, called `expected` in complaints. -/
def text (expected : String) : Decoder String
  | .string s => pure s
  | v => throw (v.mistyped expected)

/-- A whole number from `low` to `high`, called `expected` in complaints. What 64 bits hold and the
range does not is a wrong value; what they do not hold is of a wrong type. -/
def integer (low high : Int) (expected : String) : Decoder Int
  | .integer i =>
    if low ≤ i ∧ i ≤ high then pure i
    else if -Int.pow 2 63 ≤ i ∧ i < Int.pow 2 64 then
      throw (.invalidValue (.integer i) expected)
    else throw ((Value.integer i).mistyped expected)
  | v => throw (v.mistyped expected)

/-- A whole number of 64 bits with a sign. -/
def signed : Decoder Int := integer (-Int.pow 2 63) (Int.pow 2 63 - 1) "i64"

/-- A whole number of 64 bits without a sign, called `expected` in complaints. -/
def natural (expected : String) : Decoder Nat := fun v =>
  Int.toNat <$> integer 0 (Int.pow 2 64 - 1) expected v

/-- A value that may be null. -/
def optional {α : Type} (decode : Decoder α) : Decoder (Option α)
  | .null => pure none
  | v => some <$> decode v

def list {α : Type} (decode : Decoder α) : Decoder (List α)
  | .array items => items.mapM decode
  | v => throw (v.mistyped "a sequence")

/-- One of several named alternatives: its name, or a table with its name as the only key and an
empty table as the value. -/
def choice {α : Type} (options : List (String × α)) : Decoder α
  | .string s => named s
  | .table [(key, inner)] => do
    let a ← named key
    match inner with
    | .table [] => pure a
    | _ => throw .malformed
  | _ => throw .malformed
where
  named (s : String) : Except Misfit α :=
    match options.lookup s with
    | some a => pure a
    | none => throw (.unknownVariant s (options.map (·.1)))

end Decoder

/-- A field of a record that is read piece by piece. -/
structure Field (σ : Type) where
  name : String
  required : Bool := false
  /-- Reads the field's value and puts it into the record. -/
  set : Value → σ → Except Misfit σ

/-- An optional field that is read in the given way. -/
def Field.of {σ α : Type} (name : String) (decode : Decoder α) (put : α → σ → σ) : Field σ :=
  { name, set := fun v s => do return put (← decode v) s }

/-- How a record is read: its name in complaints, its fields, and its value when no field is
given. -/
structure Layout (σ : Type) where
  name : String
  fields : List (Field σ)
  blank : σ

namespace Layout

variable {σ : Type}

/-- Reads one entry of a table. -/
def readEntry (l : Layout σ) (s : σ) (entry : String × Value) : Except Misfit σ :=
  match l.fields.find? (·.name = entry.1) with
  | some f => f.set entry.2 s
  | none => do entry.2.skip; return s

/-- Reads the record from the entries of a table, in their order. -/
def readTable (l : Layout σ) (entries : List (String × Value)) : Except Misfit σ := do
  let s ← entries.foldlM l.readEntry l.blank
  match l.fields.find? fun f => f.required && !entries.any (·.1 = f.name) with
  | some f => throw (.missingField f.name)
  | none => return s

/-- What is expected of an array that the record is read from. -/
def expected (l : Layout σ) : String :=
  let n := l.fields.length
  "struct " ++ l.name ++ " with " ++ toString n ++ (if n = 1 then " element" else " elements")

/-- Reads fields from the items of an array; items that are missing leave their fields out.
`index` is the position of the first of them. -/
def readItems (l : Layout σ) : (fields : List (Field σ)) → (index : Nat) → List Value → σ →
    Except Misfit σ
  | [], _, _, s => pure s
  | f :: fields, index, [], s =>
    if f.required then throw (.invalidLength index l.expected) else l.readItems fields (index + 1) [] s
  | f :: fields, index, item :: items, s => do
    let s ← f.set item s
    l.readItems fields (index + 1) items s

/-- Reads the record. With `exact`, an array may not have more items than the record has fields. -/
def decode (l : Layout σ) (exact : Bool) : Decoder σ
  | .table entries => l.readTable entries
  | .moment => l.readTable []
  | .array items => do
    let s ← l.readItems l.fields 0 items l.blank
    if exact && l.fields.length < items.length then
      throw (.invalidLength items.length "fewer elements in array")
    return s
  | v => throw (v.mistyped ("struct " ++ l.name))

end Layout

end QuorumPool.Document
