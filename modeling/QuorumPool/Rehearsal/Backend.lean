import QuorumPool.Duration
import QuorumPool.PoolError
import QuorumPool.Text.Quoted

namespace QuorumPool.Rehearsal

/-- Names a connection of the backend: connections are numbered as they come into being. -/
abbrev ObjectId := Nat

/-- A connection of the backend. -/
structure Object where
  /-- The number it is known by in reports. -/
  label : Nat
  address : String
  closed : Bool := false
  made : Duration
deriving Repr

namespace Object

/-- The connection as diagnostics show it. -/
def debug (o : Object) : String :=
  Text.record "MockConnection"
    [("id", toString o.label), ("address", Text.quote o.address), ("closed", Text.bool o.closed)]

end Object

/-- What the backend is asked to do. -/
inductive Job where
  | create (address : String)
  | validate (object : ObjectId)
  | close (object : ObjectId)
deriving DecidableEq, Repr

/-- The kinds of call that a script tells apart. -/
inductive JobKind where
  | create | validate | close
deriving DecidableEq, Repr

/-- A scripted outcome: a wait, and then a failure or the call's usual course. -/
structure Outcome where
  delay : Option Duration
  failure : Option PoolError
deriving Repr

/-- What a call comes to: the connection it made or was about, or its failure. -/
abbrev Deed := Except PoolError ObjectId

/-- A call under way: in a scripted wait, in the wait that closing takes, or over. -/
inductive Pending where
  | scripted (time : Duration) (failure : Option PoolError)
  | closing (time : Duration)
  | ended (deed : Deed)

/-- The backend. -/
structure Backend where
  objects : List Object := []
  labels : Nat := 0
  creates : Nat := 0
  validates : Nat := 0
  closes : Nat := 0
  createsFor : List (String × Nat) := []
  down : List String := []
  unhealthy : List String := []
  closeDelay : Option Duration := none
  script : List ((String × JobKind) × List (Option Outcome)) := []

namespace Backend

def object (b : Backend) (o : ObjectId) : Object :=
  b.objects.getD o { label := 0, address := "", made := .zero }

/-- Brings a connection into being. -/
def make (b : Backend) (label : Nat) (address : String) (now : Duration) : Backend × ObjectId :=
  ({ b with objects := b.objects ++ [{ label, address, made := now }] }, b.objects.length)

def setMember (present : Bool) (address : String) (addresses : List String) : List String :=
  let others := addresses.filter (· != address)
  if present then address :: others else others

/-- How many dials the address has seen. -/
def createsOf (b : Backend) (address : String) : Nat := (b.createsFor.lookup address).getD 0

/-- Adds outcomes at the end of a script. -/
def addScript (b : Backend) (address : String) (kind : JobKind) (outcomes : List (Option Outcome)) :
    Backend :=
  let key := (address, kind)
  let queued := (b.script.lookup key).getD []
  { b with script := (key, queued ++ outcomes) :: b.script.filter (·.1 != key) }

/-- Takes the next outcome off a script. -/
def nextOutcome (b : Backend) (address : String) (kind : JobKind) : Backend × Option Outcome :=
  let key := (address, kind)
  match b.script.lookup key with
  | some (outcome :: rest) =>
    ({ b with script := (key, rest) :: b.script.filter (·.1 != key) }, outcome)
  | _ => (b, none)

/-- The usual course of a dial. -/
def create (b : Backend) (address : String) (now : Duration) : Backend × Pending :=
  let b := { b with
    creates := b.creates + 1
    createsFor :=
      (address, b.createsOf address + 1) :: b.createsFor.filter (·.1 != address) }
  if b.down.contains address then (b, .ended (.error (.connect address "connection refused")))
  else
    let b := { b with labels := b.labels + 1 }
    let (b, o) := b.make b.labels address now
    (b, .ended (.ok o))

/-- The usual course of a validation. -/
def validate (b : Backend) (o : ObjectId) : Backend × Pending :=
  let b := { b with validates := b.validates + 1 }
  let object := b.object o
  let deed : Deed :=
    if object.closed then
      .error (.unhealthy ("connection " ++ toString object.label ++ " is closed"))
    else if b.unhealthy.contains object.address then
      .error (.unhealthy (object.address ++ " failed validation"))
    else .ok o
  (b, .ended deed)

/-- The end of a close. -/
def finishClose (b : Backend) (o : ObjectId) : Backend × Pending :=
  ({ b with
      closes := b.closes + 1
      objects := b.objects.modify o fun object => { object with closed := true } },
    .ended (.ok o))

/-- The usual course of a call. -/
def usual (b : Backend) (now : Duration) : Job → Backend × Pending
  | .create address => b.create address now
  | .validate o => b.validate o
  | .close o =>
    match b.closeDelay with
    | some delay => (b, .closing (now + delay))
    | none => b.finishClose o

def addressOf (b : Backend) : Job → String
  | .create address => address
  | .validate o | .close o => (b.object o).address

end Backend

namespace Job

def kind : Job → JobKind
  | create _ => .create
  | validate _ => .validate
  | close _ => .close

/-- The call as reports show it. -/
def text (b : Backend) : Job → String
  | create address => "create " ++ address
  | validate o => "validate " ++ toString (b.object o).label
  | close o => "close " ++ toString (b.object o).label

end Job

namespace Backend

/-- Begins a call: a scripted outcome comes first, and stands in for the usual course if it is a
failure. -/
def begin (b : Backend) (now : Duration) (job : Job) : Backend × Pending :=
  match b.nextOutcome (b.addressOf job) job.kind with
  | (b, none) => b.usual now job
  | (b, some { delay := some delay, failure }) => (b, .scripted (now + delay) failure)
  | (b, some { delay := none, failure := some e }) => (b, .ended (.error e))
  | (b, some { delay := none, failure := none }) => b.usual now job

/-- Goes on with a call whose wait is over. -/
def proceed (b : Backend) (now : Duration) (job : Job) : Pending → Backend × Pending
  | .scripted _ (some e) => (b, .ended (.error e))
  | .scripted _ none => b.usual now job
  | .closing _ =>
    match job with
    | .close o => b.finishClose o
    | _ => b.usual now job
  | .ended deed => (b, .ended deed)

end Backend

namespace Pending

/-- When a call can go on, if it waits for a moment in time. -/
def deadline? : Pending → Option Duration
  | scripted t _ | closing t => some t
  | ended _ => none

end Pending

end QuorumPool.Rehearsal
