import QuorumPool.IoError

namespace QuorumPool

/-- Why a pool could not do what it was asked. -/
inductive PoolError where
  /-- The shard has as many connections lent as it may, and none idle. -/
  | poolExhausted
  /-- No shard visited within the retry budget gave a connection. -/
  | retriesExhausted (attempts : Nat)
  | poolClosed
  | shardClosed (address : String)
  /-- The connection is not lent, or belongs to no live shard. -/
  | invalidReturn
  | invalidConfig (reason : String)
  /-- The factory could not establish a connection. -/
  | connect (address message : String)
  /-- A connection failed its liveness check. -/
  | unhealthy (message : String)
  | io (error : IoError)
  /-- Any other failure of the factory. -/
  | backend (message : String)
deriving DecidableEq, Repr

namespace PoolError

def message : PoolError → String
  | poolExhausted => "pool: connection pool exhausted"
  | retriesExhausted n => "pool: failed to get connection after " ++ toString n ++ " retries"
  | poolClosed => "pool: connection pool closed"
  | shardClosed a => "pool: shard " ++ a ++ " is closed"
  | invalidReturn => "pool: object has already been returned to this pool or is invalid"
  | invalidConfig r => "pool: invalid configuration: " ++ r
  | connect a m => "failed to connect to " ++ a ++ ": " ++ m
  | unhealthy m => "connection is unhealthy: " ++ m
  | io e => "I/O error: " ++ e.message
  | backend m => "backend error: " ++ m

/-- The text of the failure underneath, for those that wrap one. -/
def source : PoolError → Option String
  | io e => some e.message
  | backend m => some m
  | _ => none

/-- Whether the same operation may succeed later. -/
def isTransient : PoolError → Bool
  | poolExhausted | connect .. | unhealthy _ | backend _ => true
  | io e => e.isTransient
  | _ => false

/-- Whether the failure shows a mistake of the caller or a pool that is gone. -/
def isPermanent : PoolError → Bool
  | poolClosed | shardClosed _ | invalidReturn | invalidConfig _ => true
  | _ => false

/-- The failure as diagnostics show it. -/
def debug : PoolError → String
  | poolExhausted => "PoolExhausted"
  | retriesExhausted n => Text.record "RetriesExhausted" [("attempts", toString n)]
  | poolClosed => "PoolClosed"
  | shardClosed a => Text.record "ShardClosed" [("address", Text.quote a)]
  | invalidReturn => "InvalidReturn"
  | invalidConfig r => "InvalidConfig(" ++ Text.quote r ++ ")"
  | connect a m => Text.record "Connect" [("address", Text.quote a), ("message", Text.quote m)]
  | unhealthy m => "Unhealthy(" ++ Text.quote m ++ ")"
  | io e => "Io(" ++ e.debug ++ ")"
  | backend m => "Backend(" ++ Text.quote m ++ ")"

end PoolError

end QuorumPool
