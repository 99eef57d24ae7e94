import QuorumPool.Config
import QuorumPool.Event
import QuorumPool.Settings.Address

namespace QuorumPool

/-- The version of the library. -/
def version : String := "0.1.0"

/-- The settings of one pool. -/
structure PoolSettings where
  name : String := ""
  /-- The addresses, between semicolons. -/
  dsn : String := ""
  password : String := ""
  /-- The database that each connection selects. -/
  db : Int := 0
  maxIdle : Nat := 50
  maxActive : Nat := 100
  /-- The age in seconds from which an idle connection is not lent; zero stands for none. -/
  idleTimeoutSecs : Nat := 0
  connectTimeoutMs : Nat := 50
  readTimeoutMs : Nat := 100
  writeTimeoutMs : Nat := 100
deriving DecidableEq, Repr

namespace PoolSettings

def addresses (s : PoolSettings) : List String := Settings.addressesOf s.dsn

/-- The name in reports and look-ups. -/
def displayName (s : PoolSettings) : String := if s.name.isEmpty then "default" else s.name

def connectTimeout (s : PoolSettings) : Duration := .ofMillis s.connectTimeoutMs

def readTimeout (s : PoolSettings) : Duration := .ofMillis s.readTimeoutMs

def writeTimeout (s : PoolSettings) : Duration := .ofMillis s.writeTimeoutMs

/-- The configuration of the pool. -/
def poolConfig (s : PoolSettings) : Config :=
  { maxIdle := s.maxIdle
    maxActive := s.maxActive
    idleTimeout := if 0 < s.idleTimeoutSecs then some (.ofSecs s.idleTimeoutSecs) else none
    maxFails := 5 }

end PoolSettings

/-- The settings of all pools. -/
structure RedisSettings where
  /-- Whether any pool is built. -/
  enabled : Bool := false
  /-- The pool that is found without a name. -/
  default : Option PoolSettings := none
  /-- The pools that are found by their names. -/
  connection : List PoolSettings := []
deriving DecidableEq, Repr

/-- The pools, the default one first. -/
def RedisSettings.pools (s : RedisSettings) : List PoolSettings := s.default.toList ++ s.connection

/-- The settings of the log. -/
structure LogSettings where
  level : Level := .info
  /-- The file that the log goes to, instead of the console. -/
  file : Option String := none
deriving DecidableEq, Repr

/-- The settings of the program. -/
structure Settings where
  redis : RedisSettings := {}
  logging : LogSettings := {}
deriving DecidableEq, Repr

end QuorumPool
