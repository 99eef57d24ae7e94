import QuorumPool.Redis.Registry
import QuorumPool.Scripted.Network

namespace QuorumPool.Session

/-- A command. -/
inductive Command where
  | dialer (dialer : Dialer)
  | create (address : String) (name : Option String)
  | validate (conn : String)
  | close (conn : String)
  | conn (conn : String)
  | query (conn : String) (args : List String) (kind : ReplyKind)
  | verify (address : String)
  | newPool (name : String) (addresses : List String) (config : Config)
  | poolFrom (settings : PoolSettings)
  | get (name : Option String)
  | release (conn : String)
  | poolQuery (args : List String) (kind : ReplyKind)
  | stats
  | poolClose
  /-- Builds a registry from settings that could be read, or fails as their reading did. -/
  | registry (settings : Except Failure RedisSettings)
  | registryGet (name : String)
  | registryDefault
  | registryList
  | registryShutdown
  | registryDrop

/-- What is to be said about a connection. -/
structure ConnReport where
  address : String
  broken : Bool
  borrowed : Bool
  attached : Bool
  debug : String

/-- What is to be said about a pool. -/
structure PoolReport where
  name : String
  addresses : List String
  closed : Bool
  maxRetry : Nat
  config : Config

/-- What a command reports. -/
inductive Report where
  | ok
  /-- There is no pool, registry or connection of the kind or name. -/
  | missing
  | failure (failure : Failure)
  | dialer (debug : String) (responseTimeout : Duration)
  | conn (report : ConnReport)
  | value (value : ReplyValue)
  | queryFailure (failure : Failure)
  | address (address : String)
  | pool (report : PoolReport)
  | stats (stats : List ShardStats)
  | flag (value : Bool)
  | count (n : Nat)
  | pools (pools : List (String × Bool))

/-- The report of something that succeeds without a value. -/
def Report.ofUnit : Except Failure Unit → Report
  | .ok () => .ok
  | .error e => .failure e

/-- The report of a query. -/
def Report.ofQuery : Except Failure ReplyValue → Report
  | .ok v => .value v
  | .error e => .queryFailure e

end QuorumPool.Session
