import QuorumPool.IoError
import QuorumPool.Redis.Error

namespace QuorumPool

/-- The kinds of error that a client tells apart. -/
inductive RedisKind where
  | responseError | parseError | authenticationFailed | typeError | execAbortError
  | busyLoadingError | noScriptError | invalidClientConfig | moved | ask | tryAgain | clusterDown
  | crossSlot | masterDown | ioError | clientError | extensionError | readOnly
  | masterNameNotFoundBySentinel | noValidReplicasFoundBySentinel | emptySentinelList | notBusy
  | clusterConnectionNotFound | resp3NotSupported
deriving DecidableEq, Repr

namespace RedisKind

/-- Every kind with its name, and with the code by which servers signal it, if there is one. -/
def table : List (RedisKind × String × Option String) :=
  [(responseError, "ResponseError", some "ERR"),
   (parseError, "ParseError", none),
   (authenticationFailed, "AuthenticationFailed", none),
   (typeError, "TypeError", none),
   (execAbortError, "ExecAbortError", some "EXECABORT"),
   (busyLoadingError, "BusyLoadingError", some "LOADING"),
   (noScriptError, "NoScriptError", some "NOSCRIPT"),
   (invalidClientConfig, "InvalidClientConfig", none),
   (moved, "Moved", some "MOVED"),
   (ask, "Ask", some "ASK"),
   (tryAgain, "TryAgain", some "TRYAGAIN"),
   (clusterDown, "ClusterDown", some "CLUSTERDOWN"),
   (crossSlot, "CrossSlot", some "CROSSSLOT"),
   (masterDown, "MasterDown", some "MASTERDOWN"),
   (ioError, "IoError", none),
   (clientError, "ClientError", none),
   (extensionError, "ExtensionError", none),
   (readOnly, "ReadOnly", some "READONLY"),
   (masterNameNotFoundBySentinel, "MasterNameNotFoundBySentinel", none),
   (noValidReplicasFoundBySentinel, "NoValidReplicasFoundBySentinel", none),
   (emptySentinelList, "EmptySentinelList", none),
   (notBusy, "NotBusy", some "NOTBUSY"),
   (clusterConnectionNotFound, "ClusterConnectionNotFound", none),
   (resp3NotSupported, "RESP3NotSupported", none)]

def name (k : RedisKind) : String :=
  ((table.find? (·.1 = k)).map (·.2.1)).getD "ClientError"

def ofName? (s : String) : Option RedisKind := (table.find? (·.2.1 = s)).map (·.1)

/-- The kind that servers signal by a code. -/
def ofCode? (code : String) : Option RedisKind := (table.find? (·.2.2 = some code)).map (·.1)

end RedisKind

namespace RedisError

/-- An error of the connection. It is one of the connection whatever its kind, and some kinds say
that the connection took too long or that the other side has gone away. -/
def io (e : IoError) : RedisError where
  message := e.message
  isIo := true
  isTimeout := e.kind = .timedOut || e.kind = .wouldBlock
  isDropped := e.kind = .brokenPipe || e.kind = .connectionReset || e.kind = .unexpectedEof

/-- An error of a known kind. -/
def kinded (k : RedisKind) (description : String) (detail : Option String) : RedisError where
  message := match detail with
    | none => description ++ "- " ++ k.name
    | some detail => description ++ " - " ++ k.name ++ ": " ++ detail
  isIo := k = .ioError

/-- An error that a server signals under a code that names no known kind. -/
def coded (code detail : String) : RedisError where
  message := code ++ ": " ++ detail

/-- The error that a server signals with a line: its code, a blank, and the rest. -/
def ofLine (line : String) : RedisError :=
  let cs := line.toList
  let code := String.ofList (cs.takeWhile (· ≠ ' '))
  let detail := match cs.dropWhile (· ≠ ' ') with
    | [] => none
    | _ :: rest => some (String.ofList rest)
  match RedisKind.ofCode? code with
  | some k => kinded k "An error was signalled by the server" detail
  | none => coded code (detail.getD "Unknown extension error encountered")

end RedisError

end QuorumPool
