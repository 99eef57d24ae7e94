import QuorumPool.Number.Shortest

namespace QuorumPool.Document

/-- A value of a document. Integers and floats are kept apart: a document that writes `1.0` where an
integer belongs is at fault. -/
inductive Value where
  | null
  | bool (b : Bool)
  | integer (i : Int)
  | float (x : Binary64)
  /-- A number that no format of the machine can hold. -/
  | unrepresentable
  | string (s : String)
  /-- A date, a time, or both. -/
  | moment
  | array (items : List Value)
  /-- Entries with distinct keys. -/
  | table (entries : List (String × Value))
deriving Repr, Inhabited

namespace Value

/-- Puts an entry into its place among entries that ascend by their keys; an equal key's entry
is replaced. -/
def insertSorted (key : String) (value : Value) : List (String × Value) → List (String × Value)
  | [] => [(key, value)]
  | (k, v) :: rest =>
    if key < k then (key, value) :: (k, v) :: rest
    else if key = k then (key, value) :: rest
    else (k, v) :: insertSorted key value rest

/-- Entries in ascending order of their keys; of two with the same key the later one stays. -/
def sortEntries (entries : List (String × Value)) : List (String × Value) :=
  entries.foldl (fun sorted (key, value) => insertSorted key value sorted) []

/-- The value of a key, when this is a table that has it. -/
def get? (v : Value) (key : String) : Option Value :=
  match v with
  | table entries => entries.lookup key
  | _ => none

end Value

end QuorumPool.Document
