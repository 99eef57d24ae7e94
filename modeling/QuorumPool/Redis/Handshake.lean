import QuorumPool.Redis.Client
import QuorumPool.Redis.Dialer

namespace QuorumPool.Dialer

variable {C : Client}

/-- What a connection says before it is used: it authenticates if there is a password, and selects
its database if that is not the one with number zero. -/
def greetings (d : Dialer) : List (List String) :=
  (if d.password.isEmpty then [] else [["AUTH", d.password]])
    ++ (if d.db = 0 then [] else [["SELECT", toString d.db]])

/-- Says the greetings one after the other, as long as none fails. -/
def greet (k : Link C) (n : C.Network) :
    List (List String) → C.Network × Link C × Except Failure Unit
  | [] => (n, k, .ok ())
  | words :: rest =>
    match k.query n (C.command words) C.unit with
    | (n, k, .ok ()) => greet k n rest
    | (n, k, .error e) => (n, k, .error e)

/-- The URL of the server at an address. -/
def url (address : String) : String := "redis://" ++ address ++ "/"

/-- Dials an address. A connection whose greetings fail is given up. -/
def dial (d : Dialer) (n : C.Network) (address : String) : C.Network × Except Failure (Link C) :=
  match C.target (url address) with
  | .error e => (n, .error (.redis e))
  | .ok target =>
    match C.connect n target d.connectTimeout with
    | (n, none) => (n, .error (.timeout d.connectTimeout))
    | (n, some (.error e)) => (n, .error (.redis e))
    | (n, some (.ok handle)) =>
      match greet { address, handle := some handle, limit := d.responseTimeout } n d.greetings with
      | (n, k, .ok ()) => (n, .ok k)
      | (n, k, .error e) => ((k.close n).1, .error e)

/-- Makes a connection for a pool. -/
def create (d : Dialer) (n : C.Network) (address : String) :
    C.Network × Except PoolError (Link C) :=
  let (n, result) := d.dial n address
  (n, result.mapError fun e => .connect address e.message)

/-- Dials an address, pings, and gives the connection up. -/
def trial (d : Dialer) (n : C.Network) (address : String) : C.Network × Except Failure Unit :=
  match d.create n address with
  | (n, .error e) => (n, .error (.pool e))
  | (n, .ok k) =>
    let (n, k, outcome) := k.validate n
    ((k.close n).1, outcome.mapError .pool)

/-- Tries an address, and reports it if all is well. -/
def verify (d : Dialer) (s : Scene C) (address : String) : Scene C × Except Failure Unit :=
  match d.trial s.network address with
  | (network, .error e) => ({ s with network }, .error e)
  | (network, .ok ()) => ({ s with network }.note (.addressVerified address), .ok ())

/-- Verifies addresses in order, up to the first that fails. -/
def verifyAll (d : Dialer) (s : Scene C) : List String → Scene C × Except Failure Unit
  | [] => (s, .ok ())
  | address :: rest =>
    match d.verify s address with
    | (s, .error e) => (s, .error e)
    | (s, .ok ()) => verifyAll d s rest

end QuorumPool.Dialer
