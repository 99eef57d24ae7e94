import QuorumPool.Document.Toml.Lexical
import QuorumPool.Document.Toml.Scalar
import QuorumPool.Document.Toml.Tree

namespace QuorumPool.Document.Toml

/-- How deep arrays and inline tables may lie within each other. -/
def maxDepth : Nat := 80

mutual

/-- A value. `depth` is how much deeper arrays and inline tables may go. Every call has one less of
`fuel`. -/
def value? : (fuel depth : Nat) → List Char → Option (Value × List Char)
  | 0, _, _ => none
  | fuel + 1, depth, cs =>
    match cs with
    | '"' :: _ | '\'' :: _ => (string? cs).map fun (s, rest) => (.string s, rest)
    | '[' :: rest =>
      if depth = 0 then none
      else (items? fuel (depth - 1) rest).map fun (items, rest) => (.array items, rest)
    | '\x7b' :: rest =>
      if depth = 0 then none
      else (entries? fuel (depth - 1) [] rest).map fun (entries, rest) =>
        ((Node.table .header entries).toValue, rest)
    | cs =>
      let (w, rest) := word cs
      (scalar? w).map fun v => (v, rest)

/-- The items of an array up to its end. -/
def items? : (fuel depth : Nat) → List Char → Option (List Value × List Char)
  | 0, _, _ => none
  | fuel + 1, depth, cs => do
    match ← skipGaps false cs with
    | ']' :: rest => some ([], rest)
    | cs =>
      let (item, rest) ← value? fuel depth cs
      match ← skipGaps false rest with
      | ']' :: rest => some ([item], rest)
      | ',' :: rest =>
        let (items, rest) ← items? fuel depth rest
        some (item :: items, rest)
      | _ => none

/-- The entries of an inline table up to its end, after those read before. -/
def entries? : (fuel depth : Nat) → Entries → List Char → Option (Entries × List Char)
  | 0, _, _, _ => none
  | fuel + 1, depth, before, cs => do
    match ← skipGaps false cs with
    | '\x7d' :: rest => some (before, rest)
    | cs =>
      let (path, rest) ← key? cs.length cs
      match rest with
      | '=' :: rest =>
        let (value, rest) ← value? fuel depth (skipBlanks rest)
        let entries ← addEntry value path false .header before
        match ← skipGaps false rest with
        | '\x7d' :: rest => some (entries, rest)
        | ',' :: rest => entries? fuel depth entries rest
        | _ => none
      | _ => none

end

/-- The document as far as it is read: the root's entries, and the path of the table that entries
go to. -/
structure Draft where
  root : Entries := []
  path : List String := []

namespace Draft

/-- Changes the table at a path. -/
def change (d : Draft) (path : List String) (f : Origin → Entries → Option Entries) :
    Option Draft :=
  (underHeader path f .header d.root).map fun root => { d with root }

/-- Opens what a header names, which the entries that follow go to. -/
def openBy (d : Draft) (f : String → Entries → Option Entries) (path : List String) :
    Option Draft :=
  match path.getLast? with
  | none => none
  | some key => (d.change path.dropLast fun _ => f key).map fun d => { d with path }

end Draft

/-- The path in a header, up to its closing brackets. -/
def header? (closing cs : List Char) : Option (List String × List Char) := do
  let (path, rest) ← key? cs.length cs
  if closing.isPrefixOf rest then some (path, rest.drop closing.length) else none

/-- A line that says something, and what follows it. -/
def line? (d : Draft) (cs : List Char) : Option (Draft × List Char) := do
  let (d, rest) ← match cs with
    | '[' :: '[' :: rest => do
      let (path, rest) ← header? [']', ']'] rest
      let d ← d.openBy openRow path
      some (d, rest)
    | '[' :: rest => do
      let (path, rest) ← header? [']'] rest
      let d ← d.openBy openTable path
      some (d, rest)
    | cs => do
      let (path, rest) ← key? cs.length cs
      match rest with
      | '=' :: rest =>
        let rest := skipBlanks rest
        let (value, rest) ← value? (2 * rest.length + 2) maxDepth rest
        let d ← d.change d.path fun origin => addEntry value path false origin
        some (d, rest)
      | _ => none
  let rest ← endLine false rest
  some (d, rest)

/-- The lines from here on, with one less of `fuel` for each. -/
def lines? : (fuel : Nat) → Draft → List Char → Option Draft
  | 0, _, _ => none
  | fuel + 1, d, cs => do
    match ← skipGaps false cs with
    | [] => some d
    | cs =>
      let (d, rest) ← line? d cs
      lines? fuel d rest

/-- Drops the mark of the byte order that may stand at the front. -/
def dropMark : List Char → List Char
  | '\uFEFF' :: rest => rest
  | cs => cs

/-- The table that a TOML document writes. -/
def read? (text : String) : Option Value :=
  let cs := dropMark text.toList
  (lines? (cs.length + 1) {} cs).map fun d => (Node.table .header d.root).toValue

end QuorumPool.Document.Toml
