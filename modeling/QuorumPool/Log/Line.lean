import QuorumPool.Document.Json.Writer
import QuorumPool.Event

namespace QuorumPool

namespace Field

/-- The value on the console, where texts are quoted. -/
def console : Field → String
  | shown s => s
  | text s => Text.quote s
  | number n => toString n

def json : Field → Document.Value
  | shown s | text s => .string s
  | number n => .integer n

end Field

namespace Event

/-- The line for the console. -/
def consoleLine (e : Event) : String :=
  e.level.capitals ++ " " ++ e.topic ++ ": " ++ e.message
    ++ String.join (e.fields.map fun (key, field) => " " ++ key ++ "=" ++ field.console)

/-- The object for a file. -/
def json (e : Event) : Document.Value :=
  let fields := ("message", .string e.message) :: e.fields.map fun (key, field) => (key, field.json)
  .table
    [("fields", .table (Document.Value.sortEntries fields)), ("level", .string e.level.capitals),
     ("target", .string e.topic)]

def jsonLine (e : Event) : String := Document.Json.write e.json

end Event

end QuorumPool
