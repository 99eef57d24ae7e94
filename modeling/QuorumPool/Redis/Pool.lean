import QuorumPool.Pool.Alone
import QuorumPool.Redis.Handshake
import QuorumPool.Settings.Validate

namespace QuorumPool

variable {C : Client}

/-- A pool of Redis connections: a pool with a name, the dialer that makes its connections, and what
its connections are. -/
structure RedisPool (C : Client) where
  name : String
  dialer : Dialer
  pool : Pool
  /-- The connections that the pool has dialed for lending, by their numbers. -/
  links : List (Link C) := []
  /-- The connection that a health check holds. -/
  probe : Link C := default

namespace RedisPool

/-- What a pool's calls act on: the network, the pool's connections, and a connection that it was
given and does not know. -/
structure Reach (C : Client) where
  network : C.Network
  dialer : Dialer
  links : List (Link C)
  probe : Link C
  stray : Link C := default

namespace Reach

def link (r : Reach C) : Target → Link C
  | .own c => r.links.getD c default
  | .probe => r.probe
  | .stray => r.stray

def setLink (r : Reach C) (k : Link C) : Target → Reach C
  | .own c => { r with links := r.links.set c k }
  | .probe => { r with probe := k }
  | .stray => { r with stray := k }

/-- Does what a pool asks for. -/
def serve : Pool.Service (Reach C) := fun r call =>
  match call with
  | .dial _ address =>
    match r.dialer.create r.network address with
    | (network, .ok k) => ({ r with network, links := r.links ++ [k] }, .ok ())
    | (network, .error e) => ({ r with network }, .error e)
  | .probe address =>
    match r.dialer.create r.network address with
    | (network, .ok k) => ({ r with network, probe := k }, .ok ())
    | (network, .error e) => ({ r with network }, .error e)
  | .validate t =>
    let (network, k, reply) := (r.link t).validate r.network
    ({ r with network }.setLink k t, reply)
  | .close t =>
    let (network, k) := (r.link t).close r.network
    ({ r with network }.setLink k t, .ok ())

end Reach

def reach (rp : RedisPool C) (n : C.Network) : Reach C :=
  { network := n, dialer := rp.dialer, links := rp.links, probe := rp.probe }

/-- Takes over the state after an activity, with what the pool has reported moved to the log. -/
def after (rp : RedisPool C) (s : Scene C) (r : Reach C) (p : Pool) : Scene C × RedisPool C :=
  let (p, entries) := p.takeJournal
  let events := entries.filterMap fun
    | .event e => some e
    | .call _ => none
  ({ network := r.network, log := events.reverse ++ s.log },
    { rp with pool := p, links := r.links, probe := r.probe })

/-- Lets the health checker go on until it waits. -/
def settle (rp : RedisPool C) (s : Scene C) : Scene C × RedisPool C :=
  let (r, p) := rp.pool.settle Reach.serve rp.pool.checkerEffort (rp.reach s.network)
  rp.after s r p

/-- A pool over the addresses, none of which has been tried. -/
def create (s : Scene C) (name : String) (addresses : List String) (dialer : Dialer)
    (config : Config) : Scene C × Except Failure (RedisPool C) :=
  match Pool.create config addresses .zero with
  | .error e => (s, .error (.pool e))
  | .ok pool =>
    let rp : RedisPool C := { name, dialer, pool }
    let (s, rp) := rp.after s (rp.reach s.network) pool
    (s, .ok rp)

/-- A pool as settings describe it. Every address is verified first. -/
def ofSettings (s : Scene C) (t : PoolSettings) : Scene C × Except Failure (RedisPool C) :=
  match t.validate with
  | .error e => (s, .error e)
  | .ok () =>
    let dialer := Dialer.ofSettings t
    match dialer.verifyAll s t.addresses with
    | (s, .error e) => (s, .error e)
    | (s, .ok ()) =>
      create (s.note (.addressesVerified t.displayName t.addresses.length)) t.displayName
        t.addresses dialer t.poolConfig

/-- Lends a connection, by its number in the pool. -/
def get (rp : RedisPool C) (s : Scene C) : Scene C × RedisPool C × Except Failure ConnId :=
  let (r, p, result) := rp.pool.getAlone Reach.serve (rp.reach s.network)
  let (s, rp) := rp.after s r p
  (s, rp, result.mapError .pool)

def link (rp : RedisPool C) (c : ConnId) : Link C := rp.links.getD c default

/-- Runs a command on a connection of the pool. -/
def queryOn {α : Type} (rp : RedisPool C) (s : Scene C) (c : ConnId) (command : C.Command)
    (read : C.Reply → Except RedisError α) : Scene C × RedisPool C × Except Failure α :=
  let (network, k, result) := (rp.link c).query s.network command read
  ({ s with network }, { rp with links := rp.links.set c k }, result)

/-- Takes back a connection, as broken if it is in doubt; `name` is that of the pool which was asked
to. -/
def release (rp : RedisPool C) (s : Scene C) (name : String) (c : ConnId) :
    Scene C × RedisPool C × Except Failure Unit :=
  let k := rp.link c
  let s := if k.broken then s.note (.releasingBroken name k.address) else s
  let (r, p, result) := rp.pool.putAlone Reach.serve (rp.reach s.network) c k.broken
  let (s, rp) := rp.after s r p
  (s, rp, result.mapError .pool)

/-- Takes a connection that belongs to no live shard, which is closed and refused. -/
def releaseStray (rp : RedisPool C) (s : Scene C) (k : Link C) :
    Scene C × RedisPool C × Link C × Except Failure Unit :=
  let s := if k.broken then s.note (.releasingBroken rp.name k.address) else s
  let (r, p, _) := rp.pool.perform Reach.serve { rp.reach s.network with stray := k } .strayPut
  let (s, rp) := rp.after s r p
  (s, rp, r.stray, .error (.pool .invalidReturn))

/-- Lends a connection, runs a command on it and takes it back. What comes of the return has no
part in the result. -/
def query {α : Type} (rp : RedisPool C) (s : Scene C) (command : C.Command)
    (read : C.Reply → Except RedisError α) : Scene C × RedisPool C × Except Failure α :=
  match rp.get s with
  | (s, rp, .error e) => (s, rp, .error e)
  | (s, rp, .ok c) =>
    let (s, rp, result) := rp.queryOn s c command read
    match rp.release s rp.name c with
    | (s, rp, .ok ()) => (s, rp, result)
    | (s, rp, .error e) => (s.note (.releaseFailed rp.name e.message), rp, result)

/-- Shuts the pool down. -/
def close (rp : RedisPool C) (s : Scene C) : Scene C × RedisPool C :=
  let (r, p) := rp.pool.shutdownAlone Reach.serve (rp.reach s.network)
  rp.after s r p

/-- Gives the pool up without shutting it down. -/
def abandon (rp : RedisPool C) (s : Scene C) : Scene C × RedisPool C :=
  { rp with pool := rp.pool.abandon }.settle s

end RedisPool

end QuorumPool
