import QuorumPool.Redis.Client
import QuorumPool.Scripted.Endpoint
import QuorumPool.Scripted.Reply

namespace QuorumPool

/-- What a server does on a request: it answers, says nothing, or closes the connection. -/
inductive Response where
  | reply (r : RedisReply)
  | silence
  | hangUp

/-- How a server takes connections: it does, it refuses them, or it takes them and says nothing. -/
inductive ServerMode where
  | serving | down | mute
deriving DecidableEq, Repr

/-- A server that answers by a script. -/
structure Server where
  mode : ServerMode := .serving
  /-- The responses to each command; the last one repeats. -/
  script : List (String × List Response) := []
  /-- How many connections it has taken. -/
  connections : Nat := 0

namespace Server

/-- What a server says to a command that its script does not know. -/
def usual (command : String) : Response :=
  if command = "PING" then .reply (.simple "PONG")
  else if command = "AUTH" ∨ command = "SELECT" then .reply (.simple "OK")
  else .reply (.error "ERR unknown command")

/-- The response to a command, which is taken off the script unless it is the last. -/
def respond (s : Server) (command : String) : Server × Response :=
  match s.script.lookup command with
  | none | some [] => (s, usual command)
  | some [response] => (s, response)
  | some (response :: rest) =>
    ({ s with script := s.script.map fun (c, rs) => if c = command then (c, rest) else (c, rs) },
      response)

end Server

/-- A request that a server has received. -/
structure Heard where
  /-- The server's place in the network. -/
  server : Nat
  /-- The server's number for the connection, counted from one. -/
  connection : Nat
  args : List String
deriving DecidableEq, Repr

/-- How a connection stands: in step, behind by a reply, or closed by the server. A server that
falls silent on a request leaves the connection behind: whatever it says later belongs to the request
before, and no later request is answered in time. -/
inductive SocketState where
  | inStep | behind | dropped
deriving DecidableEq, Repr

/-- A connection to a server. -/
structure Socket where
  server : Nat
  number : Nat
  state : SocketState := .inStep
deriving DecidableEq, Repr, Inhabited

/-- A network of servers that answer by scripts, with the connections to them. -/
structure Network where
  /-- Whether there is a way to any server. -/
  reachable : Bool := true
  servers : List (String × Nat × Server) := []
  sockets : List Socket := []
  /-- The requests that servers have received, the latest first. -/
  heard : List Heard := []

namespace Network

def setState (n : Network) (i : Nat) (state : SocketState) : Network :=
  { n with sockets := n.sockets.modify i fun k => { k with state } }

/-- The place of the server at a host and a port. -/
def find? (n : Network) (e : Endpoint) : Option (Nat × Server) :=
  n.servers.zipIdx.findSome? fun ((host, port, s), i) =>
    if host = e.host ∧ port = e.port then some (i, s) else none

def setServer (n : Network) (i : Nat) (s : Server) : Network :=
  { n with servers := n.servers.modify i fun (host, port, _) => (host, port, s) }

/-- Why an endpoint cannot be reached when there is no way to any server: there is none to this one
either, or not even to the one that knows its name. -/
def outOfReach (e : Endpoint) : IoError :=
  if e.isKnown then .system .networkUnreachable
  else .told .other
    "failed to lookup address information: Temporary failure in name resolution"

/-- Connects to the server at an endpoint. A server that says nothing lets any time go by. -/
def connect (n : Network) (e : Endpoint) : Network × Option (Except RedisError Nat) :=
  if !n.reachable then (n, some (.error (.io (outOfReach e))))
  else match n.find? e with
    | none => (n, some (.error (.io (.system .connectionRefused))))
    | some (i, s) =>
      match s.mode with
      | .down => (n, some (.error (.io (.system .connectionRefused))))
      | .mute => (n.setServer i { s with connections := s.connections + 1 }, none)
      | .serving =>
        let number := s.connections + 1
        let n := n.setServer i { s with connections := number }
        ({ n with sockets := n.sockets ++ [{ server := i, number }] }, some (.ok n.sockets.length))

/-- Sends a request on a connection and takes its reply. -/
def exchange (n : Network) (i : Nat) (args : List String) :
    Network × Option (Except RedisError RedisReply) :=
  let socket := n.sockets.getD i default
  let command := (args.head?.getD "").toList.map Char.toUpper
  match socket.state, n.servers[socket.server]? with
  | .dropped, _ | _, none => (n, some (.error (.io (.plain .brokenPipe))))
  | state, some (_, _, s) =>
    let (s, response) := s.respond (String.ofList command)
    let n := n.setServer socket.server s
    let n := { n with heard := ⟨socket.server, socket.number, args⟩ :: n.heard }
    match response, state with
    | .hangUp, _ => (n.setState i .dropped, some (.error (.io (.plain .brokenPipe))))
    | .silence, _ => (n.setState i .behind, none)
    | .reply _, .behind => (n, none)
    | .reply r, _ => (n, some (.ok r))

end Network

/-- A client for servers that answer by scripts. Servers do not notice when a connection is let go,
and replies take no time or any time. -/
def scripted : Client where
  Network := Network
  Target := Endpoint
  Handle := Nat
  Command := List String
  Reply := RedisReply
  target := Endpoint.ofUrl
  connect n e _ := n.connect e
  command := id
  request n i _ args := n.exchange i args
  drop n _ := n
  unit r := r.checked.map fun _ => ()
  text r := r.checked.bind RedisReply.toText

end QuorumPool
