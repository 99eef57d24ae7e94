import QuorumPool.Document.Decoder
import QuorumPool.Document.Toml.Reader
import QuorumPool.Settings.Validate

namespace QuorumPool

open Document

def PoolSettings.layout : Layout PoolSettings where
  name := "RedisPoolSettings"
  blank := {}
  fields :=
    [.of "name" (Decoder.text "a string") fun name s => { s with name },
     { Field.of "dsn" (Decoder.text "a string") fun dsn (s : PoolSettings) => { s with dsn } with
        required := true },
     .of "password" (Decoder.text "a string") fun password s => { s with password },
     .of "db" Decoder.signed fun db s => { s with db },
     .of "max_idle" (Decoder.natural "usize") fun maxIdle s => { s with maxIdle },
     .of "max_active" (Decoder.natural "usize") fun maxActive s => { s with maxActive },
     .of "idle_timeout_secs" (Decoder.natural "u64")
        fun idleTimeoutSecs s => { s with idleTimeoutSecs },
     .of "connect_timeout_ms" (Decoder.natural "u64")
        fun connectTimeoutMs s => { s with connectTimeoutMs },
     .of "read_timeout_ms" (Decoder.natural "u64") fun readTimeoutMs s => { s with readTimeoutMs },
     .of "write_timeout_ms" (Decoder.natural "u64")
        fun writeTimeoutMs s => { s with writeTimeoutMs }]

def RedisSettings.layout (exact : Bool) : Layout RedisSettings where
  name := "RedisSettings"
  blank := {}
  fields :=
    [.of "use" Decoder.bool fun enabled s => { s with enabled },
     .of "default" (Decoder.optional (PoolSettings.layout.decode exact))
        fun default s => { s with default },
     .of "connection" (Decoder.list (PoolSettings.layout.decode exact))
        fun connection s => { s with connection }]

def LogSettings.layout : Layout LogSettings where
  name := "LoggingSettings"
  blank := {}
  fields :=
    [.of "level" (Decoder.choice (Level.all.map fun level => (level.name, level)))
        fun level s => { s with level },
     .of "file" (Decoder.optional (Decoder.text "path string")) fun file s => { s with file }]

def Settings.layout (exact : Bool) : Layout Settings where
  name := "Settings"
  blank := {}
  fields :=
    [.of "redis" ((RedisSettings.layout exact).decode exact) fun redis s => { s with redis },
     .of "logging" (LogSettings.layout.decode exact) fun logging s => { s with logging }]

/-- Settings as a TOML document gives them, before the rules are checked. -/
def Settings.ofToml (text : String) : Except Misfit Settings :=
  match Toml.read? text with
  | none => .error .malformed
  | some v => (Settings.layout false).decode false v

/-- The settings that a TOML document gives. -/
def Settings.parse (text : String) : Except Failure Settings := parseBy ofToml text

end QuorumPool
