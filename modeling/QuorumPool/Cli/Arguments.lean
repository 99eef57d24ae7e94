import QuorumPool.Cli.Help
import QuorumPool.Text.Digits

namespace QuorumPool.Cli

/-- What the program is called to do. -/
inductive Action where
  | check
  | watch (interval : Nat)
deriving DecidableEq, Repr

/-- A call of the program. -/
structure Invocation where
  verbose : Bool
  /-- The path of the settings. -/
  config : String
  action : Action
deriving DecidableEq, Repr

/-- What is wrong with a command line. -/
inductive Misuse where
  | unknownArgument (word : String)
  | unknownCommand (word : String)
  | noCommand
  | noValue (switch : Switch)
  | surplusValue (switch : Switch) (value : String)
  | invalidValue (switch : Switch) (value reason : String)
  | repeated (switch : Switch)
  | notGiven (switch : Switch)
deriving DecidableEq, Repr

def Misuse.message : Misuse → String
  | unknownArgument word => "unexpected argument '" ++ word ++ "' found"
  | unknownCommand word => "unrecognized subcommand '" ++ word ++ "'"
  | noCommand => "'shardpool' requires a subcommand but one was not provided"
  | noValue s => "a value is required for '" ++ s.name ++ "' but none was supplied"
  | surplusValue s v =>
    "unexpected value '" ++ v ++ "' for '--" ++ s.long ++ "' found; no more were expected"
  | invalidValue s v reason => "invalid value '" ++ v ++ "' for '" ++ s.name ++ "': " ++ reason
  | repeated s => "the argument '" ++ s.name ++ "' cannot be used multiple times"
  | notGiven s => "the following required arguments were not provided:\n  " ++ s.name

/-- Why a command line calls the program to nothing. -/
inductive Stop where
  /-- The help of a command was asked for. -/
  | help (command : Command)
  | version
  /-- Nothing at all was asked for. -/
  | nothing
  | misuse (command : Command) (misuse : Misuse)
deriving DecidableEq, Repr

/-- A command line as far as it is read at one level. -/
structure Reading where
  /-- The options so far, with their values. -/
  given : List (Switch × String) := []
  /-- An option whose value may still come, or has come and is not yet taken. It is taken when the
  next option or the end is reached, so complaints about words come before complaints about it. -/
  pending : Option (Switch × Option String) := none
  /-- Whether only words that are no options follow. -/
  trailing : Bool := false

/-- The number that a text writes, or what is wrong with it. -/
def natural? (text : String) : Except String Nat :=
  let digits := match text.toList with
    | ['+'] => ['+']
    | '+' :: rest => rest
    | cs => cs
  if digits.isEmpty then .error "cannot parse integer from empty string"
  else if !digits.all Text.isDigit then .error "invalid digit found in string"
  else if Nat.pow 2 64 ≤ Text.number 10 digits then .error "number too large to fit in target type"
  else .ok (Text.number 10 digits)

/-- The interval that a value writes. -/
def interval? (value : String) : Except Misuse Nat :=
  match natural? value with
  | .error reason => .error (.invalidValue .interval value reason)
  | .ok 0 => .error (.invalidValue .interval value "0 is not in 1..18446744073709551615")
  | .ok n => .ok n

namespace Reading

/-- Takes an option with its value. -/
def take (r : Reading) (s : Switch) (value : String) : Except Misuse Reading :=
  if r.given.any (·.1 = s) then .error (.repeated s)
  else
    let r := { r with given := r.given ++ [(s, value)] }
    match s with
    | .config => if value.isEmpty then .error (.noValue s) else .ok r
    | .interval => (interval? value).map fun _ => r
    | _ => .ok r

/-- Takes the pending option. -/
def settle (r : Reading) : Except Misuse Reading :=
  match r.pending with
  | none => .ok r
  | some (s, none) => .error (.noValue s)
  | some (s, some value) => { r with pending := none }.take s value

/-- Whether the next word is the value of an option. -/
def awaits (r : Reading) : Bool := r.pending.any (·.2.isNone)

/-- An option without an attached value. -/
def meet (r : Reading) (c : Command) (s : Switch) : Except Stop Reading := do
  let r ← r.settle.mapError (.misuse c)
  match s with
  | .help => throw (.help c)
  | .version => throw .version
  | s =>
    if s.value?.isSome then return { r with pending := some (s, none) }
    else (r.take s "").mapError (.misuse c)

/-- An option with an attached value. -/
def meetWith (r : Reading) (c : Command) (s : Switch) (value : String) : Except Stop Reading :=
  Except.mapError (.misuse c) do (← r.settle).take s value

/-- A word of short options, of which the last may have its value attached. -/
def cluster (r : Reading) (c : Command) : List Char → Except Stop Reading
  | [] => .ok r
  | letter :: rest =>
    match c.switches.find? (·.short = letter) with
    | none => .error (.misuse c (.unknownArgument ("-" ++ String.singleton letter)))
    | some s =>
      if s.value?.isNone then
        match r.meet c s with
        | .error stop => .error stop
        | .ok r => cluster r c rest
      else match rest with
        | [] => r.meet c s
        | '=' :: value => r.meetWith c s (String.ofList value)
        | value => r.meetWith c s (String.ofList value)

/-- A word that begins with two dashes, which are dropped. -/
def longOption (r : Reading) (c : Command) (word : List Char) : Except Stop Reading :=
  let name := String.ofList (word.takeWhile (· ≠ '='))
  match c.switches.find? (·.long = name), word.dropWhile (· ≠ '=') with
  | none, _ => .error (.misuse c (.unknownArgument ("--" ++ name)))
  | some s, [] => r.meet c s
  | some s, _ :: value =>
    if s.value?.isSome then r.meetWith c s (String.ofList value)
    else .error (.misuse c (.surplusValue s (String.ofList value)))

/-- The complaint about a word that is neither an option nor a value. -/
def stray (r : Reading) (c : Command) (word : String) : Misuse :=
  if c.subcommands.isEmpty || (r.trailing && (c.subcommand? word).isSome)
  then .unknownArgument word
  else .unknownCommand word

/-- A word other than the name of a command. -/
def word (r : Reading) (c : Command) (w : String) : Except Stop Reading :=
  if r.trailing then .error (.misuse c (r.stray c w))
  else match w.toList with
    | ['-', '-'] => .ok { r with trailing := true }
    | '-' :: '-' :: rest => r.longOption c rest
    | '-' :: letter :: rest => r.cluster c (letter :: rest)
    | _ =>
      match r.pending with
      | some (s, none) => .ok { r with pending := some (s, some w) }
      | _ => .error (.misuse c (r.stray c w))

end Reading

/-- The command that words after `help` name. -/
def explained (c : Command) : List String → Except Stop Command
  | [] => .ok c
  | word :: rest =>
    match c.subcommand? word with
    | some s => explained s rest
    | none => .error (.misuse .program (.unknownCommand word))

/-- Reads the words of a command, up to the name of a command under it; gives that command and the
words after its name. -/
def level (c : Command) : Reading → List String →
    Except Stop (Reading × Option (Command × List String))
  | r, [] => .ok (r, none)
  | r, w :: rest =>
    match if r.trailing || r.awaits then none else c.subcommand? w with
    | some s => .ok (r, some (s, rest))
    | none =>
      match r.word c w with
      | .error stop => .error stop
      | .ok r => level c r rest

/-- Reads all words of a command that has none under it. -/
def ending (c : Command) (words : List String) : Except Stop Reading := do
  let (r, _) ← level c {} words
  let r ← r.settle.mapError (.misuse c)
  if r.given.any (·.1 = .config) then return r else throw (.misuse c (.notGiven .config))

/-- The call that a command line makes. -/
def parse (words : List String) : Except Stop Invocation := do
  let (outer, next) ← level .program {} words
  let verbose (r : Reading) : Bool := r.given.any (·.1 = .verbose)
  let invocation (r : Reading) (action : Action) : Invocation :=
    { verbose := verbose outer || verbose r, config := (r.given.lookup .config).getD "", action }
  match next with
  | some (.check, rest) =>
    let r ← ending .check rest
    return invocation r .check
  | some (.watch, rest) =>
    let r ← ending .watch rest
    let interval ← match r.given.lookup .interval with
      | none => pure 10
      | some value => (interval? value).mapError (.misuse .watch)
    return invocation r (.watch interval)
  | some (_, rest) => throw (.help (← explained .program rest))
  | none =>
    if outer.given.isEmpty then throw .nothing else throw (.misuse .program .noCommand)

end QuorumPool.Cli
