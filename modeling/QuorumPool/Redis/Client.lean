import QuorumPool.Event
import QuorumPool.Failure

namespace QuorumPool

/-- A library by which a program talks to Redis servers, with the servers behind it. The program
relies on nothing but the types of what the library takes and gives: what a request comes to may
depend on anything that the servers have seen. -/
structure Client where
  /-- The servers and all between them and the program, at some moment. -/
  Network : Type
  /-- What a URL says about a server. -/
  Target : Type
  /-- What the library knows a connection by. -/
  Handle : Type
  /-- A command with its arguments. -/
  Command : Type
  /-- What a server replies, before it is read as a value of some type. -/
  Reply : Type
  /-- Reads a URL. -/
  target : String → Except RedisError Target
  /-- Connects to a server; nothing comes of it if that takes longer than the limit. -/
  connect : Network → Target → (limit : Duration) → Network × Option (Except RedisError Handle)
  /-- The command that consists of the given words. -/
  command : List String → Command
  /-- Sends a command on a connection and takes the reply; nothing comes of it if that takes longer
  than the limit. -/
  request : Network → Handle → (limit : Duration) → Command →
    Network × Option (Except RedisError Reply)
  /-- Lets go of a connection. -/
  drop : Network → Handle → Network
  /-- Reads a reply of which nothing matters but that it is no error. -/
  unit : Reply → Except RedisError Unit
  /-- Reads a reply as a text. -/
  text : Reply → Except RedisError String

variable {C : Client}

/-- A program's connection to a server. -/
structure Link (C : Client) where
  address : String
  /-- What the client knows the connection by; nothing once it was given up. -/
  handle : Option C.Handle
  /-- How long a request and its reply may take. -/
  limit : Duration
  /-- Whether a request has failed in a way that leaves the connection in doubt. -/
  broken : Bool := false

instance : Inhabited (Link C) := ⟨{ address := "", handle := none, limit := .zero }⟩

namespace Link

/-- Whether the connection was given up. -/
def closed (k : Link C) : Bool := k.handle.isNone

/-- Runs a command on a connection and reads the reply with `read`. A failure that leaves the
connection in doubt is remembered. -/
def query {α : Type} (k : Link C) (n : C.Network) (command : C.Command)
    (read : C.Reply → Except RedisError α) : C.Network × Link C × Except Failure α :=
  match k.handle with
  | none => (n, k, .error (.pool (.unhealthy ("connection to " ++ k.address ++ " is closed"))))
  | some handle =>
    match C.request n handle k.limit command with
    | (n, none) => (n, { k with broken := true }, .error (.timeout k.limit))
    | (n, some reply) =>
      match reply.bind read with
      | .ok v => (n, k, .ok v)
      | .error e => (n, { k with broken := k.broken || e.isFatal }, .error (.redis e))

/-- Gives a connection up. -/
def close (k : Link C) (n : C.Network) : C.Network × Link C :=
  match k.handle with
  | none => (n, k)
  | some handle => (C.drop n handle, { k with handle := none })

/-- Whether a connection answers a ping. -/
def validate (k : Link C) (n : C.Network) : C.Network × Link C × Except PoolError Unit :=
  match k.query n (C.command ["PING"]) C.text with
  | (n, k, .error e) => (n, k, .error (.unhealthy (k.address ++ ": " ++ e.message)))
  | (n, k, .ok reply) =>
    if reply = "PONG" then (n, k, .ok ())
    else
      (n, k, .error (.unhealthy (k.address ++ ": unexpected PING reply " ++ Text.quote reply)))

end Link

/-- A program's surroundings: the network as it is, and what was reported to the log, the latest
first. -/
structure Scene (C : Client) where
  network : C.Network
  log : List Event := []

def Scene.note (s : Scene C) (e : Event) : Scene C := { s with log := e :: s.log }

end QuorumPool
