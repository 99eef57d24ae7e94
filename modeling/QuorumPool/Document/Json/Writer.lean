import QuorumPool.Document.Value
import QuorumPool.Text.Quoted

namespace QuorumPool.Document.Json

/-- How one character is written inside a string. -/
def escape (c : Char) : List Char :=
  match c with
  | '"' => ['\\', '"']
  | '\\' => ['\\', '\\']
  | '\n' => ['\\', 'n']
  | '\r' => ['\\', 'r']
  | '\t' => ['\\', 't']
  | '\x08' => ['\\', 'b']
  | '\x0c' => ['\\', 'f']
  | c =>
    if c.toNat < 0x20 then
      let digits := Text.hex c.toNat
      ['\\', 'u'] ++ List.replicate (4 - digits.length) '0' ++ digits
    else [c]

/-- A string between its quotes. -/
def quote (s : String) : String := String.ofList (['"'] ++ s.toList.flatMap escape ++ ['"'])

mutual

/-- The JSON text of a value. What JSON cannot say is written as null. -/
def write : Value → String
  | .null | .unrepresentable | .moment => "null"
  | .bool b => Text.bool b
  | .integer i => toString i
  | .float x => if x.magnitude < Binary64.infinite then x.text .compact else "null"
  | .string s => quote s
  | .array items => "[" ++ ",".intercalate (writeItems items) ++ "]"
  | .table entries => "\x7b" ++ ",".intercalate (writeEntries entries) ++ "\x7d"

def writeItems : List Value → List String
  | [] => []
  | item :: items => write item :: writeItems items

def writeEntries : List (String × Value) → List String
  | [] => []
  | (key, value) :: entries => (quote key ++ ":" ++ write value) :: writeEntries entries

end

end QuorumPool.Document.Json
