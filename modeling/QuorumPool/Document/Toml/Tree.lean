import QuorumPool.Document.Value

namespace QuorumPool.Document.Toml

/-- How a table came into being: opened by a header, named on the way of a header, or made by a
dotted key. What was made in one of these ways can be extended in some of the others only. -/
inductive Origin where
  | header | way | dotted
deriving DecidableEq, Repr

/-- A place in the document: a final value, a table, or a row of tables of which the last is still
open. -/
inductive Node where
  | value (v : Value)
  | table (origin : Origin) (entries : List (String × Node))
  | row (closed : List (List (String × Node))) (current : List (String × Node))

/-- The entries of a table. -/
abbrev Entries := List (String × Node)

namespace Node

mutual

/-- The finished value of a place. -/
def toValue : Node → Value
  | .value v => v
  | .table _ entries => .table (Value.sortEntries (toValues entries))
  | .row closed entries =>
    .array (rowValues closed ++ [.table (Value.sortEntries (toValues entries))])

def toValues : List (String × Node) → List (String × Value)
  | [] => []
  | (key, node) :: rest => (key, toValue node) :: toValues rest

def rowValues : List (List (String × Node)) → List Value
  | [] => []
  | entries :: rest => .table (Value.sortEntries (toValues entries)) :: rowValues rest

end

end Node

/-- Replaces the entry of a key, or adds it. -/
def put (key : String) (node : Node) : Entries → Entries
  | [] => [(key, node)]
  | (k, n) :: rest => if k = key then (key, node) :: rest else (k, n) :: put key node rest

/-- Changes the table at the end of a path of header parts, making the tables on the way that are
not there. A table on the way may be anything but a final value. -/
def underHeader : List String → (Origin → Entries → Option Entries) → Origin → Entries → Option Entries
  | [], change, origin, entries => change origin entries
  | key :: path, change, _, entries =>
    match entries.lookup key with
    | none => (underHeader path change .way []).map fun es => put key (.table .way es) entries
    | some (.table origin es) =>
      (underHeader path change origin es).map fun es => put key (.table origin es) entries
    | some (.row closed es) =>
      (underHeader path change .header es).map fun es => put key (.row closed es) entries
    | some (.value _) => none

/-- Adds a value under a dotted key. A table that a header has opened is not extended in this way,
and a table that the key's last part goes to is made by dotted keys, unless the key has one part
only. -/
def addEntry (value : Value) : List String → (inner : Bool) → Origin → Entries → Option Entries
  | [], _, _, _ => none
  | [key], inner, origin, entries =>
    if inner != (origin == .dotted) then none
    else match entries.lookup key with
      | none => some (entries ++ [(key, .value value)])
      | some _ => none
  | key :: path, _, _, entries =>
    match entries.lookup key with
    | none =>
      (addEntry value path true .dotted []).map fun es => put key (.table .dotted es) entries
    | some (.table origin es) =>
      if origin = .header then none
      else (addEntry value path true origin es).map fun es => put key (.table origin es) entries
    | some (.row closed es) =>
      (addEntry value path true .header es).map fun es => put key (.row closed es) entries
    | some (.value _) => none

/-- Opens a table by a header. Only one that was named on the way of another header may be there
already. -/
def openTable (key : String) (entries : Entries) : Option Entries :=
  match entries.lookup key with
  | none => some (entries ++ [(key, .table .header [])])
  | some (.table .way es) => some (put key (.table .header es) entries)
  | some _ => none

/-- Adds an empty table to a row of tables. -/
def openRow (key : String) (entries : Entries) : Option Entries :=
  match entries.lookup key with
  | none => some (entries ++ [(key, .row [] [])])
  | some (.row closed es) => some (put key (.row (closed ++ [es]) []) entries)
  | some _ => none

end QuorumPool.Document.Toml
