import QuorumPool.Event
import QuorumPool.Pool.Task

namespace QuorumPool

/-- What the pool knows about a connection it dialed for lending. -/
structure Conn where
  shard : Nat
  borrowed : Bool
  /-- When it was dialed or last returned. -/
  lastUsed : Duration
deriving DecidableEq, Repr

/-- What a pool has done: reported an event, or asked something of the factory. -/
inductive Entry where
  | event (event : Event)
  | call (call : Call)
deriving DecidableEq, Repr

/-- A pool with its tasks in flight. -/
structure Pool where
  config : Config
  shards : List Shard
  /-- The connections dialed for lending, in that order. -/
  conns : List Conn := []
  /-- Where the next get starts its visits. -/
  rotation : Nat := 0
  numAvailable : Nat
  /-- Shards that wait for a recheck, the one that was first to become suspect at the head. -/
  suspects : List Nat := []
  closed : Bool := false
  /-- Whether the health checker was told to stop. -/
  stopping : Bool := false
  checker : Checker := .spawned
  /-- A sweep that starts within this time of its due moment leaves the rhythm as it is. -/
  tickSlack : Duration := .ofMillis 5
  tasks : List (TaskId × Task) := []
  nextTask : TaskId := 0
  now : Duration := .zero
  /-- What the pool has done, the latest first. -/
  journal : List Entry := []
deriving Repr

namespace Pool

/-- The shard visits that one get may make. -/
def maxRetry (p : Pool) : Nat := p.config.retryBudget p.shards.length

def shard (p : Pool) (i : Nat) : Shard := p.shards.getD i default

def modifyShard (p : Pool) (i : Nat) (f : Shard → Shard) : Pool :=
  { p with shards := p.shards.modify i f }

def modifyConn (p : Pool) (c : ConnId) (f : Conn → Conn) : Pool :=
  { p with conns := p.conns.modify c f }

def count (p : Pool) (i : Nat) (f : Tally → Tally) : Pool := p.modifyShard i (·.count f)

def note (p : Pool) (e : Event) : Pool := { p with journal := .event e :: p.journal }

/-- Writes down a call at the moment it is made. -/
def ask (p : Pool) (c : Call) : Pool := { p with journal := .call c :: p.journal }

/-- Moves the rotation on by one shard. -/
def rotate (p : Pool) : Pool := { p with rotation := p.rotation + 1 }

/-- A pool over the addresses, one shard for each, or what is wrong with its configuration. -/
def create (config : Config) (addresses : List String) (now : Duration) : Except PoolError Pool := do
  config.validate
  if addresses.isEmpty then throw (.invalidConfig Config.Fault.noAddress.message)
  let pool : Pool :=
    { config, shards := addresses.map fun a => { address := a }
      numAvailable := addresses.length, now }
  return pool.note (.poolStarted addresses.length pool.maxRetry)

/-- Puts shard `i` on the suspect queue. A signal beyond the queue's capacity is dropped, and a
stopped health checker takes none. -/
def offerSuspect (p : Pool) (i : Nat) : Pool :=
  let s := p.shard i
  if p.checker = .stopped then p
  else if p.suspects.length < p.config.suspectQueueCapacity then
    { p with suspects := p.suspects ++ [i] }.note (.markedSuspect s.address s.fails)
  else p.note (.suspectQueueFull s.address)

/-- Feeds a success or a failure of shard `i` into its failure count. The failure that reaches the
threshold makes the shard suspect. -/
def recordOutcome (p : Pool) (i : Nat) (failed : Bool) : Pool :=
  if failed then
    let p := p.modifyShard i fun s => { s with fails := s.fails + 1 }
    if (p.shard i).fails = p.config.maxFails then p.offerSuspect i else p
  else p.modifyShard i fun s => { s with fails := 0 }

/-- Whether an idle connection is past the age at which it may be lent. -/
def isStale (p : Pool) (c : ConnId) : Bool :=
  match p.config.idleTimeout, p.conns[c]? with
  | some timeout, some conn => timeout < p.now - conn.lastUsed
  | _, _ => false

/-- Takes the head of shard `i`'s idle queue. -/
def dropIdle (p : Pool) (i : Nat) : Pool := p.modifyShard i fun s => { s with idle := s.idle.tail }

/-- Marks a connection of shard `i` as lent, under a slot of its own. -/
def lend (p : Pool) (i : Nat) (c : ConnId) : Pool :=
  (p.modifyConn c fun conn => { conn with borrowed := true }).modifyShard i Shard.occupySlot

/-- Reports a failed close of an idle connection, which changes nothing else. -/
def noteIdleClose (p : Pool) (i : Nat) : Reply → Pool
  | .ok () => p
  | .error e => p.note (.idleCloseFailed (p.shard i).address e)

/-- Snapshots of all shards, in the order of the addresses; the counters start again at zero. -/
def takeStats (p : Pool) : Pool × List ShardStats :=
  ({ p with shards := p.shards.map (·.count fun _ => {}) }, p.shards.map Shard.stats)

/-- A snapshot of shard `i`, whose counters start again at zero. -/
def takeShardStats (p : Pool) (i : Nat) : Pool × Option ShardStats :=
  (p.count i fun _ => {}, p.shards[i]?.map Shard.stats)

/-- Hands over what the pool has done since this was last asked, in order. -/
def takeJournal (p : Pool) : Pool × List Entry :=
  ({ p with journal := [] }, p.journal.reverse)

/-- Lets the time be `now`. -/
def setTime (p : Pool) (now : Duration) : Pool := { p with now }

/-- Tells the health checker to stop, as giving up the pool does. -/
def abandon (p : Pool) : Pool := { p with stopping := true }

end Pool

end QuorumPool
