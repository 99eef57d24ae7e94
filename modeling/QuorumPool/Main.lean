import QuorumPool.Cli.Run

namespace QuorumPool.Cli

/-- A failure that the system reports. -/
def systemFailure (e : IO.Error) : IoError :=
  match e with
  | .noFileOrDirectory .. => .system .noEntry
  | .inappropriateType _ 21 _ => .system .isDirectory
  | .inappropriateType _ 20 _ => .system .notDirectory
  | e => .told .other (toString e)

/-- The text of a file. -/
def readFile (path : String) : IO (Except IoError String) := do
  try return .ok (← IO.FS.readFile path)
  catch e => return .error (systemFailure e)

/-- Opens a file to write at its end, to see whether that can be done. -/
def tryAppend (path : String) : IO (Option IoError) := do
  try
    let _ ← IO.FS.Handle.mk path .append
    return none
  catch e => return some (systemFailure e)

/-- What a run with the given words on its command line finds around it. The program has no sockets,
and so every server is out of its reach. -/
def surroundings (words : List String) : IO Environment := do
  let text ← match parse words with
    | .ok call => readFile call.config
    | .error _ => pure (.error (.system .noEntry))
  let path? := match text.toOption.map Settings.parse with
    | some (.ok settings) => settings.logging.file
    | _ => none
  let fault ← match path? with
    | some path => tryAppend path
    | none => pure none
  return { read := fun _ => text, openLog := fun _ => fault, filter := ← IO.getEnv "RUST_LOG"
           network := { reachable := false } }

/-- Writes what a run leaves behind. -/
def Outcome.write (o : Outcome) : IO Unit := do
  (← IO.getStdout).putStr o.stdout
  (← IO.getStderr).putStr (linesText o.console ++ o.stderr)
  match o.file with
  | some (path, lines) => (← IO.FS.Handle.mk path .append).putStr (linesText lines)
  | none => pure ()

end QuorumPool.Cli

def main (words : List String) : IO UInt32 := do
  let outcome := QuorumPool.Cli.run (← QuorumPool.Cli.surroundings words) words
  outcome.write
  return outcome.exit.code.toUInt32
