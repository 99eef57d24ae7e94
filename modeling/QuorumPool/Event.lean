import QuorumPool.Duration
import QuorumPool.PoolError

namespace QuorumPool

/-- The levels of the log, the most detailed last. -/
inductive Level where
  | error | warn | info | debug | trace
deriving DecidableEq, Repr

namespace Level

/-- How much a level admits: a level admits every event of a lower or equal rank. -/
def rank : Level → Nat
  | error => 1
  | warn => 2
  | info => 3
  | debug => 4
  | trace => 5

def name : Level → String
  | error => "error"
  | warn => "warn"
  | info => "info"
  | debug => "debug"
  | trace => "trace"

def capitals : Level → String
  | error => "ERROR"
  | warn => "WARN"
  | info => "INFO"
  | debug => "DEBUG"
  | trace => "TRACE"

def all : List Level := [error, warn, info, debug, trace]

/-- The more detailed of two levels. -/
def max (a b : Level) : Level := if a.rank < b.rank then b else a

end Level

/-- A field of an event: a value shown as it is, a text that some logs quote, or a number. -/
inductive Field where
  | shown (text : String)
  | text (text : String)
  | number (n : Nat)
deriving DecidableEq, Repr

/-- What happened. -/
inductive Event where
  | poolStarted (shards maxRetry : Nat)
  | checkerStarted (interval : Duration)
  | checkerStopped
  | staleEvicted (address : String)
  | validationFailed (address : String) (error : PoolError)
  | dialed (address : String) (active : Nat)
  | dialFailed (address : String) (error : PoolError)
  | idleCloseFailed (address : String) (error : PoolError)
  | idleQueueFull (address : String)
  | markedSuspect (address : String) (fails : Nat)
  | suspectQueueFull (address : String)
  | attemptFailed (address : String) (attempt : Nat) (error : PoolError)
  | strayCloseFailed (error : PoolError)
  | checkingSuspect (address : String)
  | probeDialFailed (address : String) (attempt : Nat) (error : PoolError)
  | probeCloseFailed (address : String) (error : PoolError)
  | probeInvalid (address : String) (attempt : Nat) (error : PoolError)
  | promoted (address : String) (available : Nat)
  | demoted (address : String) (available : Nat)
  | demotionRefused (address : String) (available total : Nat)
  | drained (address : String) (count : Nat)
  | shardClosed (address : String) (drained : Nat)
  | poolShutDown (shards : Nat)
  | alreadyShutDown
  | releasingBroken (pool address : String)
  | releaseFailed (pool : String) (message : String)
  | addressVerified (address : String)
  | addressesVerified (pool : String) (count : Nat)
  | registryDisabled
  | registryStarted (pools : Nat)
  | registryShutDown (pools : Nat)
  | registryAbandoned (count : Nat)
  | statistics (pool stats : String)
  | shuttingDown
deriving DecidableEq, Repr

namespace Event

def level : Event → Level
  | poolStarted .. | promoted .. | demoted .. | poolShutDown _ | addressesVerified ..
  | registryDisabled | registryStarted _ | registryShutDown _ | statistics .. | shuttingDown => .info
  | validationFailed .. | dialFailed .. | demotionRefused .. | releaseFailed ..
  | registryAbandoned _ => .warn
  | probeCloseFailed .. => .trace
  | _ => .debug

/-- The topic of the event, a path whose parts are joined by `::`. -/
def topic : Event → String
  | staleEvicted _ | validationFailed .. | dialed .. | dialFailed .. | idleCloseFailed ..
  | idleQueueFull _ | markedSuspect .. | suspectQueueFull _ | shardClosed .. =>
    "shardpool_core::shard"
  | checkerStarted _ | checkerStopped | probeDialFailed .. | probeCloseFailed ..
  | probeInvalid .. => "shardpool_core::health"
  | poolStarted .. | attemptFailed .. | strayCloseFailed _ | checkingSuspect _ | promoted ..
  | demoted .. | demotionRefused .. | drained .. | poolShutDown _ | alreadyShutDown =>
    "shardpool_core::pool"
  | releasingBroken .. | releaseFailed .. | addressVerified _ | addressesVerified .. =>
    "shardpool::redis"
  | registryDisabled | registryStarted _ | registryShutDown _ | registryAbandoned _ =>
    "shardpool::registry"
  | statistics .. | shuttingDown => "shardpool"

def message : Event → String
  | poolStarted .. => "Connection pool started"
  | checkerStarted _ => "Health checker started"
  | checkerStopped => "Health checker stopped"
  | staleEvicted _ => "Evicting stale idle connection"
  | validationFailed .. => "Idle connection failed validation"
  | dialed .. => "Dialed new connection"
  | dialFailed .. => "Failed to dial backend"
  | idleCloseFailed .. => "Error closing idle connection"
  | idleQueueFull _ => "Idle queue full, evicting connection"
  | markedSuspect .. => "Shard marked suspect"
  | suspectQueueFull _ => "Suspect queue full, signal dropped"
  | attemptFailed .. => "Shard could not serve connection"
  | strayCloseFailed _ => "Error closing unattributed connection"
  | checkingSuspect _ => "Checking suspect shard"
  | probeDialFailed .. => "Health check dial failed"
  | probeCloseFailed .. => "Error closing health check connection"
  | probeInvalid .. => "Health check validation failed"
  | promoted .. => "Shard marked available"
  | demoted .. => "Shard marked unavailable"
  | demotionRefused .. => "Refusing to mark shard unavailable: quorum would be lost"
  | drained .. => "Drained demoted shard"
  | shardClosed .. => "Shard closed"
  | poolShutDown _ => "Connection pool shut down"
  | alreadyShutDown => "Connection pool already shut down"
  | releasingBroken .. => "Releasing broken connection"
  | releaseFailed .. => "Failed to release connection"
  | addressVerified _ => "Redis address verified"
  | addressesVerified .. => "Redis addresses verified"
  | registryDisabled => "Redis disabled, registry left empty"
  | registryStarted _ => "Redis pool registry initialized"
  | registryShutDown _ => "Redis pools shut down"
  | registryAbandoned _ => "Pool registry dropped without shutdown"
  | statistics .. => "Shard statistics"
  | shuttingDown => "Shutting down"

def fields : Event → List (String × Field)
  | poolStarted n m => [("shards", .number n), ("max_retry", .number m)]
  | checkerStarted d => [("interval", .shown d.text)]
  | staleEvicted a | idleQueueFull a | suspectQueueFull a | checkingSuspect a =>
    [("address", .shown a)]
  | validationFailed a e | dialFailed a e | idleCloseFailed a e =>
    [("address", .shown a), ("error", .shown e.message)]
  | dialed a n => [("address", .shown a), ("active", .number n)]
  | markedSuspect a n => [("address", .shown a), ("fails", .number n)]
  | attemptFailed a n e =>
    [("address", .shown a), ("attempt", .number n), ("error", .shown e.message)]
  | strayCloseFailed e => [("error", .shown e.message)]
  | probeDialFailed a n e | probeInvalid a n e =>
    [("address", .text a), ("attempt", .number n), ("error", .shown e.message)]
  | probeCloseFailed a e => [("address", .text a), ("error", .shown e.message)]
  | promoted a n | demoted a n => [("address", .shown a), ("available", .number n)]
  | demotionRefused a n t =>
    [("address", .shown a), ("available", .number n), ("total", .number t)]
  | drained a n | shardClosed a n => [("address", .shown a), ("drained", .number n)]
  | poolShutDown n => [("shards", .number n)]
  | releasingBroken p a => [("pool", .shown p), ("address", .shown a)]
  | releaseFailed p m => [("pool", .shown p), ("error", .shown m)]
  | addressVerified a => [("address", .text a)]
  | addressesVerified p n => [("pool", .text p), ("addresses", .number n)]
  | registryStarted n | registryShutDown n => [("pools", .number n)]
  | registryAbandoned n => [("open", .number n)]
  | statistics p s => [("pool", .shown p), ("stats", .shown s)]
  | checkerStopped | alreadyShutDown | registryDisabled | shuttingDown => []

/-- The event on one line: its level, its message and its fields, every value as it is. -/
def line (e : Event) : String :=
  let value : Field → String
    | .shown s | .text s => s
    | .number n => toString n
  e.level.capitals ++ " " ++ e.message
    ++ String.join (e.fields.map fun (key, field) => " " ++ key ++ "=" ++ value field)

end Event

end QuorumPool
