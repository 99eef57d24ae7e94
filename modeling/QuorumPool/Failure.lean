import QuorumPool.Document.Misfit
import QuorumPool.Duration
import QuorumPool.PoolError
import QuorumPool.Redis.Error

namespace QuorumPool

/-- How a program ends. -/
inductive ExitCode where
  | success
  /-- Some backend is not well. -/
  | unhealthy
  /-- The program cannot do its work as it was called or configured. -/
  | fatal
deriving DecidableEq, Repr

def ExitCode.code : ExitCode → Nat
  | success => 0
  | unhealthy => 1
  | fatal => 2

/-- Why something above the pools failed. -/
inductive Failure where
  | pool (error : PoolError)
  | config (reason : String)
  /-- The settings are no document of the right form. -/
  | parse (misfit : Document.Misfit)
  | io (error : IoError)
  | redis (error : RedisError)
  | unknownPool (name : String)
  | timeout (limit : Duration)
deriving DecidableEq, Repr

namespace Failure

/-- The complaint about settings, which are written in TOML. -/
def complaint (misfit : Document.Misfit) : String :=
  (misfit.message? .positional).getD "this is not a TOML document"

def message : Failure → String
  | pool e => e.message
  | config reason => "Configuration error: " ++ reason
  | parse misfit => "Failed to parse configuration: " ++ complaint misfit
  | io e => "I/O error: " ++ e.message
  | redis e => "Redis error: " ++ e.message
  | unknownPool name => "Unknown pool: " ++ name
  | timeout limit => "Operation timed out after " ++ limit.text

/-- The text of the failure underneath, for those that wrap one. -/
def source : Failure → Option String
  | pool e => e.source
  | parse misfit => some (complaint misfit)
  | io e => some e.message
  | redis e => some e.message
  | _ => none

def exitCode : Failure → ExitCode
  | config _ | parse _ | io _ | unknownPool _ => .fatal
  | pool e => if e.isPermanent then .fatal else .unhealthy
  | redis _ | timeout _ => .unhealthy

/-- Whether the same operation may succeed later. -/
def isTransient : Failure → Bool
  | pool e => e.isTransient
  | timeout _ => true
  | redis e => e.isFatal
  | _ => false

end Failure

end QuorumPool
