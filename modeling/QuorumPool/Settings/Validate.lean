import QuorumPool.Failure
import QuorumPool.Settings.Basic

namespace QuorumPool

/-- A rule that the settings of one pool break. -/
inductive PoolFault where
  | noAddress | negativeDb | zeroTimeout
deriving DecidableEq, Repr

/-- The complaint about a pool of the given name. -/
def PoolFault.message (name : String) : PoolFault → String
  | noAddress => "redis pool '" ++ name ++ "' has no addresses in dsn"
  | negativeDb => "redis pool '" ++ name ++ "' has a negative db index"
  | zeroTimeout => "redis pool '" ++ name ++ "' timeouts must be greater than 0"

namespace PoolSettings

/-- The rules that the settings break, in the order in which they are reported. -/
def faults (s : PoolSettings) : List PoolFault :=
  (if s.addresses.isEmpty then [.noAddress] else [])
    ++ (if s.db < 0 then [.negativeDb] else [])
    ++ (if s.connectTimeoutMs = 0 ∨ s.readTimeoutMs = 0 ∨ s.writeTimeoutMs = 0
        then [.zeroTimeout] else [])

/-- Accepts settings that break no rule, and otherwise reports the first one broken. -/
def validate (s : PoolSettings) : Except Failure Unit :=
  match s.faults with
  | [] => .ok ()
  | fault :: _ => .error (.config (fault.message s.displayName))

end PoolSettings

/-- A rule that the settings of all pools break. -/
inductive RedisFault where
  | noDefault
  | pool (name : String) (fault : PoolFault)
  | unnamed
  | duplicate (name : String)
deriving DecidableEq, Repr

def RedisFault.message : RedisFault → String
  | noDefault => "[redis.default] is required when redis is enabled"
  | pool name fault => fault.message name
  | unnamed => "named redis pools require a name"
  | duplicate name => "duplicate redis pool name: " ++ name

namespace RedisSettings

/-- The rules that one pool breaks on its own. -/
def ownFaults (s : PoolSettings) : List RedisFault := s.faults.map (.pool s.displayName)

/-- The rules that pools found by their names break; `earlier` are the names before theirs. -/
def namedFaults (earlier : List String) : List PoolSettings → List RedisFault
  | [] => []
  | s :: rest =>
    ownFaults s
      ++ (if s.name.isEmpty then [.unnamed] else [])
      ++ (if earlier.contains s.name then [.duplicate s.name] else [])
      ++ namedFaults (s.name :: earlier) rest

/-- The rules that the settings break, in the order in which they are reported. -/
def faults (s : RedisSettings) : List RedisFault :=
  if s.enabled then
    (match s.default with
      | none => [.noDefault]
      | some d => ownFaults d)
      ++ namedFaults [] s.connection
  else []

/-- Accepts settings that break no rule, and otherwise reports the first one broken. -/
def validate (s : RedisSettings) : Except Failure Unit :=
  match s.faults with
  | [] => .ok ()
  | fault :: _ => .error (.config fault.message)

end RedisSettings

/-- The settings that a reader finds in a text, if they break no rule. -/
def Settings.parseBy (read : String → Except Document.Misfit Settings) (text : String) :
    Except Failure Settings :=
  match read text with
  | .error misfit => .error (.parse misfit)
  | .ok settings => do
    settings.redis.validate
    return settings

end QuorumPool
