import QuorumPool.Session.Command

namespace QuorumPool

/-- Names a pool of a session. -/
abbrev PoolIndex := Nat

namespace Session

/-- Which connection of a session is meant: one that was made on its own, or one that a pool has
lent. -/
inductive Ref where
  | own (place : Nat)
  | lent (pool : PoolIndex) (conn : ConnId)
deriving DecidableEq, Repr

end Session

/-- A session. -/
structure Session extends Scene scripted where
  network := {}
  dialer : Dialer := {}
  /-- The pools in the order in which they were made. -/
  pools : List (RedisPool scripted) := []
  current : Option PoolIndex := none
  registry : Option (Registry PoolIndex) := none
  /-- The connections that were made on their own. -/
  links : List (Link scripted) := []
  conns : List (String × Session.Ref) := []

namespace Session

/-- Whether the session still holds a pool. -/
def holds (s : Session) (i : PoolIndex) : Bool :=
  s.current == some i || s.registry.any (·.pools.contains i)

def addPool (s : Session) (p : RedisPool scripted) : Session × PoolIndex :=
  ({ s with pools := s.pools ++ [p] }, s.pools.length)

def setPool (s : Session) (i : PoolIndex) (p : RedisPool scripted) : Session :=
  { s with pools := s.pools.set i p }

def nameConn (s : Session) (name : Option String) (ref : Ref) : Session :=
  match name with
  | some name => { s with conns := (name, ref) :: s.conns.filter (·.1 != name) }
  | none => s

def link (s : Session) : Ref → Link scripted
  | .own place => s.links.getD place default
  | .lent i c => (s.pools[i]?.map (·.link c)).getD default

def setLink (s : Session) (k : Link scripted) : Ref → Session
  | .own place => { s with links := s.links.set place k }
  | .lent i c =>
    { s with pools := s.pools.modify i fun p => { p with links := p.links.set c k } }

/-- What is to be said about a connection. It is attached while its pool is held. -/
def connReport (s : Session) (ref : Ref) : ConnReport :=
  let k := s.link ref
  let (borrowed, attached) := match ref with
    | .own _ => (false, false)
    | .lent i c => (s.pools[i]?.any fun p => p.pool.conns[c]?.any (·.borrowed), s.holds i)
  { address := k.address, broken := k.broken, borrowed, attached
    debug := Text.record "RedisConnection"
      [("address", Text.quote k.address), ("broken", Text.bool k.broken),
       ("pooled", Text.record "PooledObject"
          [("borrowed", Text.bool borrowed), ("last_used", "<instant>"),
           ("attached", Text.bool attached)])] }

def poolReport (p : RedisPool scripted) : PoolReport :=
  { name := p.name, addresses := p.pool.shards.map (·.address), closed := p.pool.closed
    maxRetry := p.pool.maxRetry, config := p.pool.config }

/-- Makes a pool of the session the current one. -/
def enter (s : Session) (i : PoolIndex) : Session × Report :=
  let s := { s with current := some i }
  match s.pools[i]? with
  | some p => (s, .pool (poolReport p))
  | none => (s, .missing)

/-- Makes a new pool the current one. -/
def enterNew (s : Session) : Scene scripted × Except Failure (RedisPool scripted) → Session × Report
  | (scene, .error e) => ({ s with toScene := scene }, .failure e)
  | (scene, .ok p) =>
    let (s, i) := { s with toScene := scene }.addPool p
    s.enter i

/-- Does something with the current pool. -/
def atPool (s : Session) (f : PoolIndex → RedisPool scripted → Session × Report) : Session × Report :=
  match s.current with
  | none => (s, .missing)
  | some i =>
    match s.pools[i]? with
    | some p => f i p
    | none => (s, .missing)

/-- Does something with the connection of a name. -/
def atConn (s : Session) (name : String) (f : Ref → Session × Report) : Session × Report :=
  match s.conns.lookup name with
  | some ref => f ref
  | none => (s, .missing)

/-- Does something with the registry. -/
def atRegistry (s : Session) (f : Registry PoolIndex → Session × Report) : Session × Report :=
  match s.registry with
  | some r => f r
  | none => (s, .missing)

/-- Takes a lent connection back to its pool; one that no held pool knows is refused by the current
pool, `p`. -/
def release (s : Session) (i : PoolIndex) (p : RedisPool scripted) (ref : Ref) : Session × Report :=
  let home := match ref with
    | .own _ => none
    | .lent j c => if s.holds j then s.pools[j]?.map fun q => (j, c, q) else none
  match home with
  | some (j, c, q) =>
    let (scene, q, result) := q.release s.toScene p.name c
    ({ s with toScene := scene }.setPool j q, .ofUnit result)
  | none =>
    let (scene, p, k, result) := p.releaseStray s.toScene (s.link ref)
    (({ s with toScene := scene }.setPool i p).setLink k ref, .ofUnit result)

/-- Shuts down the pools of the given indices, one after the other. -/
def closePools (s : Session) : List PoolIndex → Session
  | [] => s
  | i :: rest =>
    match s.pools[i]? with
    | none => closePools s rest
    | some p =>
      let (scene, p) := p.close s.toScene
      closePools ({ s with toScene := scene }.setPool i p) rest

/-- Shuts the registry's pools down. -/
def shutdownRegistry (s : Session) (r : Registry PoolIndex) : Session :=
  let s := s.closePools r.pools
  if r.isEmpty then s else { s with toScene := s.toScene.note (.registryShutDown r.size) }

/-- Gives the registry up. Pools that are still open are reported. -/
def dropRegistry (s : Session) (r : Registry PoolIndex) : Session :=
  let opened := (r.pools.filter fun i => s.pools[i]?.any (!·.pool.closed)).length
  let s := { s with registry := none }
  if opened = 0 then s else { s with toScene := s.toScene.note (.registryAbandoned opened) }

/-- Adds pools that are found by their names. -/
def addNamed (s : Session) : List (String × RedisPool scripted) → Session × List (String × PoolIndex)
  | [] => (s, [])
  | (name, p) :: rest =>
    let (s, i) := s.addPool p
    let (s, rest) := addNamed s rest
    (s, (name, i) :: rest)

/-- Takes over a registry. -/
def adopt (s : Session) (r : Registry (RedisPool scripted)) : Session :=
  let (s, default) := match r.default with
    | none => (s, none)
    | some p =>
      let (s, i) := s.addPool p
      (s, some i)
  let (s, named) := s.addNamed r.named
  { s with registry := some { default, named } }

/-- Builds a registry in place of the present one. -/
def buildRegistry (s : Session) (settings : RedisSettings) : Session × Report :=
  match Registry.init s.toScene settings with
  | (scene, .error e) => ({ s with toScene := scene }, .failure e)
  | (scene, .ok r) => ({ s with toScene := scene }.adopt r, .count r.size)

/-- Runs a command. -/
def run (s : Session) : Command → Session × Report
  | .dialer dialer => ({ s with dialer }, .dialer dialer.debug dialer.responseTimeout)
  | .create address name =>
    match s.dialer.create s.network address with
    | (network, .error e) => ({ s with network }, .failure (.pool e))
    | (network, .ok k) =>
      ({ s with network, links := s.links ++ [k] }.nameConn name (.own s.links.length), .ok)
  | .validate conn => s.atConn conn fun ref =>
    let (network, k, result) := (s.link ref).validate s.network
    ({ s with network }.setLink k ref, .ofUnit (result.mapError .pool))
  | .close conn => s.atConn conn fun ref =>
    let (network, k) := (s.link ref).close s.network
    ({ s with network }.setLink k ref, .ok)
  | .conn conn => s.atConn conn fun ref => (s, .conn (s.connReport ref))
  | .query conn args kind => s.atConn conn fun ref =>
    let (network, k, result) := (s.link ref).query s.network args (RedisReply.read kind)
    ({ s with network }.setLink k ref, .ofQuery result)
  | .verify address =>
    let (scene, result) := s.dialer.verify s.toScene address
    ({ s with toScene := scene }, .ofUnit result)
  | .newPool name addresses config =>
    s.enterNew (RedisPool.create s.toScene name addresses s.dialer config)
  | .poolFrom settings => s.enterNew (RedisPool.ofSettings s.toScene settings)
  | .get name => s.atPool fun i p =>
    match p.get s.toScene with
    | (scene, p, .error e) => ({ s with toScene := scene }.setPool i p, .failure e)
    | (scene, p, .ok c) =>
      (({ s with toScene := scene }.setPool i p).nameConn name (.lent i c),
        .address (p.link c).address)
  | .release conn => s.atPool fun i p => s.atConn conn fun ref => s.release i p ref
  | .poolQuery args kind => s.atPool fun i p =>
    let (scene, p, result) := p.query s.toScene args (RedisReply.read kind)
    ({ s with toScene := scene }.setPool i p, .ofQuery result)
  | .stats => s.atPool fun i p =>
    let (pool, stats) := p.pool.takeStats
    (s.setPool i { p with pool }, .stats stats)
  | .poolClose => s.atPool fun i p =>
    let (scene, p) := p.close s.toScene
    ({ s with toScene := scene }.setPool i p, .flag p.pool.closed)
  | .registry settings =>
    let s := match s.registry with
      | none => s
      | some r => (s.shutdownRegistry r).dropRegistry r
    match settings with
    | .error e => (s, .failure e)
    | .ok settings => s.buildRegistry settings
  | .registryGet name => s.atRegistry fun r =>
    match r.get name with
    | .error e => (s, .failure e)
    | .ok i => s.enter i
  | .registryDefault => s.atRegistry fun r =>
    match r.getDefault with
    | .error e => (s, .failure e)
    | .ok i => s.enter i
  | .registryList => s.atRegistry fun r =>
    (s, .pools (r.pools.filterMap fun i => s.pools[i]?.map fun p => (p.name, p.pool.closed)))
  | .registryShutdown => s.atRegistry fun r => (s.shutdownRegistry r, .ok)
  | .registryDrop =>
    match s.registry with
    | none => (s, .flag false)
    | some r => (s.dropRegistry r, .flag true)

/-- Lets the health checkers of the pools from number `i` on go on until they wait. Pools that
nobody holds are given up first. -/
def settleFrom (s : Session) (i : PoolIndex) :
    List (RedisPool scripted) → Scene scripted → Scene scripted × List (RedisPool scripted)
  | [], scene => (scene, [])
  | p :: rest, scene =>
    let (scene, p) := if s.holds i || p.pool.stopping then p.settle scene else p.abandon scene
    let (scene, rest) := settleFrom s (i + 1) rest scene
    (scene, p :: rest)

def settle (s : Session) : Session :=
  let (scene, pools) := s.settleFrom 0 s.pools s.toScene
  { s with toScene := scene, pools }

/-- What a step of a session reports, with the requests that servers have received and the events it
brought, each in order. -/
structure StepReport where
  report : Report
  heard : List Heard
  log : List Event

/-- Runs a command with all that follows from it. -/
def perform (s : Session) (c : Command) : Session × StepReport :=
  let network : Network := s.network
  let s := { s with network := { network with heard := [] }, log := [] }
  let (s, report) := s.run c
  let s := s.settle
  let network : Network := s.network
  (s, { report, heard := network.heard.reverse, log := s.log.reverse })

/-- Runs commands one after the other. -/
def performAll (s : Session) : List Command → List StepReport
  | [] => []
  | c :: rest =>
    let (s, report) := s.perform c
    report :: s.performAll rest

end Session

end QuorumPool
