import QuorumPool.Cli.Arguments
import QuorumPool.Cli.Check
import QuorumPool.Cli.Watch
import QuorumPool.Log.Filter
import QuorumPool.Log.Line
import QuorumPool.Scripted.Network
import QuorumPool.Settings.Decode

namespace QuorumPool.Cli

/-- What a run finds around it. -/
structure Surroundings (C : Client) where
  /-- What reading a file gives. -/
  read : String → Except IoError String
  /-- What is in the way of opening a file to write at its end. -/
  openLog : String → Option IoError
  /-- How settings are read out of a text. -/
  settings : String → Except Document.Misfit Settings := Settings.ofToml
  /-- The filter for the log that the environment asks for. -/
  filter : Option String
  network : C.Network
  /-- How long the program watches before it is interrupted. -/
  uptime : Duration := .zero

/-- What a run finds around it where servers answer by scripts. -/
abbrev Environment := Surroundings scripted

/-- What a run leaves behind. -/
structure Outcome where
  exit : ExitCode
  stdout : String := ""
  /-- What is said about errors, on the other stream. -/
  stderr : String := ""
  /-- The events on the console. -/
  console : List String := []
  /-- The events in the log file, with its path. -/
  file : Option (String × List String) := none
deriving DecidableEq, Repr

/-- The end of a run that was called to nothing. -/
def Stop.outcome : Stop → Outcome
  | .help c => { exit := .success, stdout := c.helpText }
  | .version => { exit := .success, stdout := versionText }
  | .nothing => { exit := .fatal, stderr := Command.program.helpText }
  | .misuse c m =>
    { exit := .fatal
      stderr := "error: " ++ m.message ++ "\n\nUsage: " ++ c.usage
        ++ "\n\nFor more information, try '--help'.\n" }

/-- The end of a run that failed: what was being done, the failure and what lies under it. -/
def failed (doing : Option String) (e : Failure) : Outcome :=
  { exit := e.exitCode
    stderr := "Error: " ++ ": ".intercalate (doing.toList ++ [e.message] ++ e.source.toList) ++ "\n" }

variable {C : Client}

/-- The settings in a file. -/
def load (env : Surroundings C) (path : String) : Except Failure Settings :=
  match env.read path with
  | .error e => .error (.io e)
  | .ok text => Settings.parseBy env.settings text

/-- What is in the way of logging as the settings say. -/
def logFault? (env : Surroundings C) (s : LogSettings) : Option Failure :=
  s.file.bind fun path => (env.openLog path).map fun e =>
    .config ("Failed to open log file " ++ path ++ ": " ++ e.message)

/-- The text of lines, each with its end. -/
def linesText (lines : List String) : String := String.join (lines.map (· ++ "\n"))

/-- What a command does with the settings. -/
def act (env : Surroundings C) (settings : RedisSettings) : Action → Scene C × Outcome
  | .check =>
    let (s, lines, exit) := check { network := env.network } settings
    (s, { exit, stdout := linesText lines })
  | .watch interval =>
    let times := env.uptime.nanos / (Duration.ofSecs interval).nanos
    match watch { network := env.network } settings times with
    | (s, .error e) => (s, failed none e)
    | (s, .ok lines) => (s, { exit := .success, stdout := linesText lines })

/-- Puts the events of a run that pass the filter where the settings say. -/
def Outcome.logged (o : Outcome) (s : LogSettings) (f : Log.Filter) (events : List Event) : Outcome :=
  let events := events.filter f.admits
  match s.file with
  | some path => { o with file := some (path, events.map (·.jsonLine)) }
  | none => { o with console := events.map (·.consoleLine) }

/-- A run of the program with the given words on its command line. -/
def run (env : Surroundings C) (words : List String) : Outcome :=
  match parse words with
  | .error stop => stop.outcome
  | .ok call =>
    match load env call.config with
    | .error e => failed (some ("Failed to load " ++ call.config)) e
    | .ok settings =>
      match logFault? env settings.logging with
      | some e => failed none e
      | none =>
        let filter := Log.Filter.choose env.filter (settings.logging.effectiveLevel call.verbose)
        let (s, o) := act env settings.redis call.action
        o.logged settings.logging filter s.log.reverse

end QuorumPool.Cli
