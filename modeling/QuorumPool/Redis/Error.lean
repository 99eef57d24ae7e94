namespace QuorumPool

/-- An error of a Redis client, as far as a program looks at it: its text, and the classes in which
the client puts it. -/
structure RedisError where
  message : String
  /-- Whether the connection failed. -/
  isIo : Bool := false
  /-- Whether the connection took too long. -/
  isTimeout : Bool := false
  /-- Whether the other side has gone away. -/
  isDropped : Bool := false
deriving DecidableEq, Repr

/-- Whether the connection cannot be trusted after the error. -/
def RedisError.isFatal (e : RedisError) : Bool := e.isIo || e.isTimeout || e.isDropped

end QuorumPool
