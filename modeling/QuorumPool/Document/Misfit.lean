import QuorumPool.Document.Value
import QuorumPool.Text.Quoted

namespace QuorumPool.Document

/-- What a complaint says of the value that it is about. -/
inductive Glimpse where
  | null
  | bool (b : Bool)
  | integer (i : Int)
  | float (x : Binary64)
  | string (s : String)
  | sequence
  | map
deriving DecidableEq, Repr

/-- The value in the words of a complaint. Integers of more than 64 bits are named with the width
that holds them. -/
def Glimpse.text (style : Binary64.Style) : Glimpse → String
  | null => "null"
  | bool b => "boolean `" ++ Text.bool b ++ "`"
  | integer i =>
    "integer `" ++ toString i ++ "`"
      ++ if -Int.pow 2 63 ≤ i ∧ i < Int.pow 2 64 then ""
        else if i < Int.pow 2 127 then " as i128" else " as u128"
  | float x => "floating point `" ++ x.text style ++ "`"
  | string s => "string " ++ Text.quote s
  | sequence => "sequence"
  | map => "map"

/-- What a complaint says of a value; none for a number that 128 bits do not hold. -/
def Value.glimpse? : Value → Option Glimpse
  | .null => some .null
  | .bool b => some (.bool b)
  | .integer i => if -Int.pow 2 127 ≤ i ∧ i < Int.pow 2 128 then some (.integer i) else none
  | .float x => some (.float x)
  | .unrepresentable => none
  | .string s => some (.string s)
  | .array _ => some .sequence
  | .moment | .table _ => some .map

/-- Why a document does not say what it should. -/
inductive Misfit where
  | invalidType (found : Glimpse) (expected : String)
  | invalidValue (found : Glimpse) (expected : String)
  | invalidLength (length : Nat) (expected : String)
  | missingField (name : String)
  | unknownVariant (name : String) (known : List String)
  /-- A fault without a text of its own. -/
  | malformed
deriving DecidableEq, Repr

namespace Misfit

/-- Alternatives in the words of a complaint. -/
def oneOf : List String → String
  | [] => "there are no variants"
  | [a] => "expected `" ++ a ++ "`"
  | [a, b] => "expected `" ++ a ++ "` or `" ++ b ++ "`"
  | names => "expected one of " ++ ", ".intercalate (names.map fun n => "`" ++ n ++ "`")

/-- The complaint, with floats in the given style; none when the fault has no text of its own. -/
def message? (style : Binary64.Style) : Misfit → Option String
  | invalidType found expected =>
    some ("invalid type: " ++ found.text style ++ ", expected " ++ expected)
  | invalidValue found expected =>
    some ("invalid value: " ++ found.text style ++ ", expected " ++ expected)
  | invalidLength n expected => some ("invalid length " ++ toString n ++ ", expected " ++ expected)
  | missingField name => some ("missing field `" ++ name ++ "`")
  | unknownVariant name known => some ("unknown variant `" ++ name ++ "`, " ++ oneOf known)
  | malformed => none

end Misfit

end QuorumPool.Document
