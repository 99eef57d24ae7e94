import QuorumPool.Settings.Basic

namespace QuorumPool

/-- What a connection needs to come into being. -/
structure Dialer where
  /-- The password that a connection authenticates with; the empty one stands for none. -/
  password : String := ""
  /-- The database that a connection selects; zero is selected already. -/
  db : Int := 0
  connectTimeout : Duration := .ofMillis 50
  readTimeout : Duration := .ofMillis 100
  writeTimeout : Duration := .ofMillis 100
deriving DecidableEq, Repr

namespace Dialer

def ofSettings (s : PoolSettings) : Dialer :=
  { password := s.password
    db := s.db
    connectTimeout := s.connectTimeout
    readTimeout := s.readTimeout
    writeTimeout := s.writeTimeout }

/-- How long a request and its reply may take together. -/
def responseTimeout (d : Dialer) : Duration := d.readTimeout + d.writeTimeout

/-- The dialer as diagnostics show it, which keep the password to themselves. -/
def debug (d : Dialer) : String :=
  Text.record "RedisConnFactory"
    [("password", Text.quote (if d.password.isEmpty then "" else "***")),
     ("db", toString d.db),
     ("connect_timeout", d.connectTimeout.text),
     ("read_timeout", d.readTimeout.text),
     ("write_timeout", d.writeTimeout.text)]

end Dialer

end QuorumPool
