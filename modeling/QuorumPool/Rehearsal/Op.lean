import QuorumPool.Rehearsal.Backend
import QuorumPool.Pool.Run

namespace QuorumPool.Rehearsal

/-- An operation. Pools and connections are known by names. -/
inductive Op where
  | new (pool : String) (addresses : List String) (config : Config)
  | get (pool : String) (name : Option String)
  | put (pool conn : String) (broken : Bool)
  /-- Several gets in a row; each connection is given back at once, broken or not, or kept under
  a name made of the stem and the number of the get. -/
  | burst (pool : String) (count : Nat) (giveBack : Option Bool) (stem : String)
  | mark (pool : String) (index : Nat) (healthy : Bool)
  | check (pool address : String)
  | advance (time : Duration)
  | stats (pool : String)
  | shardStats (pool : String) (index : Nat)
  | info (pool : String)
  | shutdown (pool : String)
  | drop (pool : String)
  | down (address : String) (on : Bool)
  | unhealthy (address : String) (on : Bool)
  | closeDelay (delay : Option Duration)
  | script (address : String) (create validate close : List (Option Outcome))
  | detached (label : Nat) (address : String) (name : Option String)
  | create (address : String) (name : Option String)
  | validate (conn : String)
  | close (conn : String)
  | conn (conn : String)
  | forget (conn : String)
  | counts (addresses : List String)

/-- Operations to perform: one, or several at the same time. -/
inductive Plan where
  | single (op : Op)
  | join (parts : List Plan)

mutual

/-- The single operations of a plan, in order. -/
def Plan.ops : Plan → List Op
  | single op => [op]
  | join parts => Plan.opsOfAll parts

def Plan.opsOfAll : List Plan → List Op
  | [] => []
  | part :: parts => part.ops ++ Plan.opsOfAll parts

end

/-- What is to be said about a connection. -/
structure ConnReport where
  label : Nat
  address : String
  closed : Bool
  borrowed : Bool
  attached : Bool
  lastUsed : Duration
  debug : String
  pooled : String

/-- What an operation reports. -/
inductive Report where
  | ok
  | error (error : PoolError)
  | noSuchPool
  | noSuchConn
  | nothing
  | flag (value : Bool)
  | lent (label : Nat) (address : String)
  | list (reports : List Report)
  | stats (stats : List ShardStats)
  | shardStats (index : Nat) (address : String) (stats : ShardStats)
  | info (addresses : List String) (maxRetry : Nat) (config : Config)
  | conn (report : ConnReport)
  | counts (creates validates closes : Nat) (createsFor : List (String × Nat))

mutual

/-- The report of a plan from those of its single operations; what is left over belongs to the
rest of the plan. -/
def Plan.gather : Plan → List Report → Report × List Report
  | single _, [] => (.nothing, [])
  | single _, r :: rest => (r, rest)
  | join parts, reports =>
    let (inner, rest) := Plan.gatherAll parts reports
    (.list inner, rest)

def Plan.gatherAll : List Plan → List Report → List Report × List Report
  | [], reports => ([], reports)
  | part :: parts, reports =>
    let (r, rest) := part.gather reports
    let (others, rest) := Plan.gatherAll parts rest
    (r :: others, rest)

end

end QuorumPool.Rehearsal
