import QuorumPool.Text.Quoted

namespace QuorumPool

/-- The kinds of failure that are told apart. -/
inductive IoKind where
  | addrInUse | addrNotAvailable | alreadyExists | argumentListTooLong | brokenPipe
  | connectionAborted | connectionRefused | connectionReset | crossesDevices | deadlock
  | directoryNotEmpty | executableFileBusy | fileTooLarge | hostUnreachable | interrupted
  | invalidData | invalidFilename | invalidInput | isADirectory | networkDown
  | networkUnreachable | notADirectory | notConnected | notFound | notSeekable | other
  | outOfMemory | permissionDenied | quotaExceeded | readOnlyFilesystem | resourceBusy
  | staleNetworkFileHandle | storageFull | timedOut | tooManyLinks | unexpectedEof
  | unsupported | wouldBlock | writeZero
deriving DecidableEq, Repr

namespace IoKind

/-- Every kind with its name and its description. -/
def table : List (IoKind × String × String) :=
  [(addrInUse, "AddrInUse", "address in use"),
   (addrNotAvailable, "AddrNotAvailable", "address not available"),
   (alreadyExists, "AlreadyExists", "entity already exists"),
   (argumentListTooLong, "ArgumentListTooLong", "argument list too long"),
   (brokenPipe, "BrokenPipe", "broken pipe"),
   (connectionAborted, "ConnectionAborted", "connection aborted"),
   (connectionRefused, "ConnectionRefused", "connection refused"),
   (connectionReset, "ConnectionReset", "connection reset"),
   (crossesDevices, "CrossesDevices", "cross-device link or rename"),
   (deadlock, "Deadlock", "deadlock"),
   (directoryNotEmpty, "DirectoryNotEmpty", "directory not empty"),
   (executableFileBusy, "ExecutableFileBusy", "executable file busy"),
   (fileTooLarge, "FileTooLarge", "file too large"),
   (hostUnreachable, "HostUnreachable", "host unreachable"),
   (interrupted, "Interrupted", "operation interrupted"),
   (invalidData, "InvalidData", "invalid data"),
   (invalidFilename, "InvalidFilename", "invalid filename"),
   (invalidInput, "InvalidInput", "invalid input parameter"),
   (isADirectory, "IsADirectory", "is a directory"),
   (networkDown, "NetworkDown", "network down"),
   (networkUnreachable, "NetworkUnreachable", "network unreachable"),
   (notADirectory, "NotADirectory", "not a directory"),
   (notConnected, "NotConnected", "not connected"),
   (notFound, "NotFound", "entity not found"),
   (notSeekable, "NotSeekable", "seek on unseekable file"),
   (other, "Other", "other error"),
   (outOfMemory, "OutOfMemory", "out of memory"),
   (permissionDenied, "PermissionDenied", "permission denied"),
   (quotaExceeded, "QuotaExceeded", "quota exceeded"),
   (readOnlyFilesystem, "ReadOnlyFilesystem", "read-only filesystem or storage medium"),
   (resourceBusy, "ResourceBusy", "resource busy"),
   (staleNetworkFileHandle, "StaleNetworkFileHandle", "stale network file handle"),
   (storageFull, "StorageFull", "no storage space"),
   (timedOut, "TimedOut", "timed out"),
   (tooManyLinks, "TooManyLinks", "too many links"),
   (unexpectedEof, "UnexpectedEof", "unexpected end of file"),
   (unsupported, "Unsupported", "unsupported"),
   (wouldBlock, "WouldBlock", "operation would block"),
   (writeZero, "WriteZero", "write zero")]

/-- The name and the description of a kind. -/
def texts (k : IoKind) : String × String :=
  match table.find? (·.1 = k) with
  | some (_, texts) => texts
  | none => ("Other", "other error")

def name (k : IoKind) : String := k.texts.1

def description (k : IoKind) : String := k.texts.2

def ofName? (s : String) : Option IoKind :=
  (table.find? (·.2.1 = s)).map (·.1)

/-- Kinds after which the same operation may succeed later: the connection was lost or refused, or
the call was cut short. -/
def isTransient : IoKind → Bool
  | connectionRefused | connectionReset | connectionAborted | notConnected | brokenPipe
  | timedOut | interrupted => true
  | _ => false

end IoKind

/-- The operating system's errors that the library meets. -/
inductive OsError where
  | noEntry | notDirectory | isDirectory | nameTooLong | networkUnreachable | connectionRefused
deriving DecidableEq, Repr

namespace OsError

def code : OsError → Nat
  | noEntry => 2
  | notDirectory => 20
  | isDirectory => 21
  | nameTooLong => 36
  | networkUnreachable => 101
  | connectionRefused => 111

def description : OsError → String
  | noEntry => "No such file or directory"
  | notDirectory => "Not a directory"
  | isDirectory => "Is a directory"
  | nameTooLong => "File name too long"
  | networkUnreachable => "Network is unreachable"
  | connectionRefused => "Connection refused"

def kind : OsError → IoKind
  | noEntry => .notFound
  | notDirectory => .notADirectory
  | isDirectory => .isADirectory
  | nameTooLong => .invalidFilename
  | networkUnreachable => .networkUnreachable
  | connectionRefused => .connectionRefused

end OsError

/-- A failure of input or output: its kind alone, a kind with a text of its own, or an error of the
operating system. -/
inductive IoError where
  | plain (kind : IoKind)
  | told (kind : IoKind) (message : String)
  | system (error : OsError)
deriving DecidableEq, Repr

namespace IoError

def kind : IoError → IoKind
  | plain k => k
  | told k _ => k
  | system e => e.kind

def message : IoError → String
  | plain k => k.description
  | told _ m => m
  | system e => e.description ++ " (os error " ++ toString e.code ++ ")"

/-- The failure as diagnostics show it. -/
def debug : IoError → String
  | plain k => "Kind(" ++ k.name ++ ")"
  | told k m => Text.record "Custom" [("kind", k.name), ("error", Text.quote m)]
  | system e => Text.record "Os"
      [("code", toString e.code), ("kind", e.kind.name), ("message", Text.quote e.description)]

def isTransient (e : IoError) : Bool := e.kind.isTransient

end IoError

end QuorumPool
