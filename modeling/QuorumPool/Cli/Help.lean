import QuorumPool.Settings.Basic

namespace QuorumPool.Cli

/-- An option of the command line. -/
inductive Switch where
  | config | interval | verbose | help | version
deriving DecidableEq, Repr

namespace Switch

def short : Switch → Char
  | config => 'c'
  | interval => 'i'
  | verbose => 'v'
  | help => 'h'
  | version => 'V'

def long : Switch → String
  | config => "config"
  | interval => "interval"
  | verbose => "verbose"
  | help => "help"
  | version => "version"

/-- What the value of an option is called, for the options that have one. -/
def value? : Switch → Option String
  | config => some "FILE"
  | interval => some "INTERVAL"
  | _ => none

/-- The option with its value, as complaints name it. -/
def name (s : Switch) : String :=
  "--" ++ s.long ++ match s.value? with
    | some v => " <" ++ v ++ ">"
    | none => ""

def purpose : Switch → String
  | config => "Settings file"
  | interval => "Seconds between statistics snapshots [default: 10]"
  | verbose => "Enable debug logging"
  | help => "Print help"
  | version => "Print version"

end Switch

/-- A level of the command line: the program itself, one of its commands, or the command that
explains the others. -/
inductive Command where
  | program | check | watch | help
deriving DecidableEq, Repr

namespace Command

def name : Command → String
  | program => "shardpool"
  | check => "check"
  | watch => "watch"
  | help => "help"

def purpose : Command → String
  | program => "Sharded Redis connection pools with health checking and failover"
  | check => "Dial and ping every configured address once"
  | watch => "Run the configured pools and log shard statistics until Ctrl-C"
  | help => "Print this message or the help of the given subcommand(s)"

/-- The commands under this one. -/
def subcommands : Command → List Command
  | program => [check, watch, help]
  | _ => []

def subcommand? (c : Command) (word : String) : Option Command :=
  c.subcommands.find? (·.name = word)

def switches : Command → List Switch
  | program => [.verbose, .help, .version]
  | check => [.config, .verbose, .help]
  | watch => [.config, .interval, .verbose, .help]
  | help => []

def usage : Command → String
  | program => "shardpool [OPTIONS] <COMMAND>"
  | check => "shardpool check [OPTIONS] --config <FILE>"
  | watch => "shardpool watch [OPTIONS] --config <FILE>"
  | help => "shardpool help [COMMAND]..."

/-- Rows of two columns, the first of which is as wide as its widest entry. -/
def table (rows : List (String × String)) : String :=
  let width := (rows.map (·.1.length)).foldl Nat.max 0
  String.join (rows.map fun (left, right) =>
    "  " ++ left ++ String.ofList (List.replicate (width - left.length) ' ') ++ "  " ++ right ++ "\n")

/-- The text that explains the command. -/
def helpText (c : Command) : String :=
  let commands := c.subcommands.map fun s => (s.name, s.purpose)
  let options := c.switches.map fun s =>
    ("-" ++ String.singleton s.short ++ ", " ++ s.name, s.purpose)
  let arguments := match c with
    | help => [("[COMMAND]...", "Print help for the subcommand(s)")]
    | _ => []
  let part (title : String) (rows : List (String × String)) : String :=
    if rows.isEmpty then "" else "\n" ++ title ++ ":\n" ++ table rows
  c.purpose ++ "\n\nUsage: " ++ c.usage ++ "\n" ++ part "Commands" commands
    ++ part "Arguments" arguments ++ part "Options" options

end Command

def versionText : String := Command.program.name ++ " " ++ version ++ "\n"

end QuorumPool.Cli
