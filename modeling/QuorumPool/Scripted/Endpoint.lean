import QuorumPool.Scripted.Error
import QuorumPool.Text.Blank
import QuorumPool.Text.Digits

namespace QuorumPool

/-- Where a server is to be found. Credentials in an address are no part of it. -/
structure Endpoint where
  host : String
  port : Nat
  db : Int
deriving DecidableEq, Repr

namespace Endpoint

def defaultPort : Nat := 6379

/-- The complaint about an address. -/
def invalid (description : String) : RedisError := .kinded .invalidClientConfig description none

/-- The characters that end the part of a URL that names the server. -/
def endsAuthority (c : Char) : Bool := c = '/' || c = '?' || c = '#'

/-- The characters that no host has. -/
def isForbidden (c : Char) : Bool :=
  c = '\x00' || c = ' ' || "#/:<>?@[\\]^|".toList.contains c

/-- Whether this is a group of an address between square brackets. -/
def isGroup (cs : List Char) : Bool :=
  1 ≤ cs.length && cs.length ≤ 4 && cs.all fun c => (Text.digit? c).isSome

/-- Whether this is an address of four numbers between points, none with a superfluous zero. -/
def isDotted (cs : List Char) : Bool :=
  let numbers := Text.splitOn '.' cs
  numbers.length == 4 && numbers.all fun ds =>
    1 ≤ ds.length && ds.length ≤ 3 && ds.all Text.isDigit && Text.number 10 ds < 256
      && (ds.head? != some '0' || ds.length == 1)

/-- Groups in which an address of four numbers at the end is written as the two groups it stands
for. -/
def withoutDotted (groups : List (List Char)) : List (List Char) :=
  match groups.getLast? with
  | some last => if isDotted last then groups.dropLast ++ [['0'], ['0']] else groups
  | none => groups

/-- The texts on both sides of the first double colon. -/
def cutDouble? : List Char → Option (List Char × List Char)
  | [] => none
  | ':' :: ':' :: rest => some ([], rest)
  | c :: rest => (cutDouble? rest).map fun (before, behind) => (c :: before, behind)

/-- The groups between colons. -/
def groupsOf (cs : List Char) : List (List Char) := if cs.isEmpty then [] else Text.splitOn ':' cs

/-- Whether this is the host of an address between square brackets: eight groups between colons, of
which a double colon may stand for one or more. -/
def isBracketed (cs : List Char) : Bool :=
  match cutDouble? cs with
  | none =>
    let groups := withoutDotted (groupsOf cs)
    groups.all isGroup && groups.length == 8
  | some (before, behind) =>
    let groups := groupsOf before ++ withoutDotted (groupsOf behind)
    groups.all isGroup && groups.length ≤ 7

/-- The number of a port, with nothing for the default one; none when it is no number of 16 bits. -/
def port? (cs : List Char) : Option Nat :=
  if cs.isEmpty then some defaultPort
  else if cs.all Text.isDigit && Text.number 10 cs < Nat.pow 2 16 then some (Text.number 10 cs)
  else none

/-- A host and a port; none when they are malformed. The host may be empty if there is no port. -/
def hostPort? (cs : List Char) : Option (List Char × Nat) :=
  match cs with
  | '[' :: rest =>
    let host := rest.takeWhile (· ≠ ']')
    match rest.dropWhile (· ≠ ']') with
    | [']'] => if isBracketed host then some (host, defaultPort) else none
    | ']' :: ':' :: port => if isBracketed host then (port? port).map fun p => (host, p) else none
    | _ => none
  | cs =>
    let host := cs.takeWhile (· ≠ ':')
    if host.any isForbidden then none
    else match cs.dropWhile (· ≠ ':') with
      | [] => some (host, defaultPort)
      | _ :: port => if host.isEmpty then none else (port? port).map fun p => (host, p)

/-- The part of an authority after the last `@`, and whether there is one. -/
def afterUser (cs : List Char) : List Char × Bool :=
  ((cs.reverse.takeWhile (· ≠ '@')).reverse, cs.contains '@')

/-- The number of a database that a path gives. -/
def db? (path : List Char) : Option Int :=
  let slashes := fun c : Char => c = '/'
  match ((path.dropWhile slashes).reverse.dropWhile slashes).reverse with
  | [] => some 0
  | cs =>
    let (negative, digits) := match cs with
      | '-' :: rest => (true, rest)
      | '+' :: rest => (false, rest)
      | cs => (false, cs)
    let n : Int := Text.number 10 digits
    let i := if negative then -n else n
    if digits.isEmpty || !digits.all Text.isDigit || i < -Int.pow 2 63 || Int.pow 2 63 ≤ i then none
    else some i

/-- The server that an address names: a host, a port after a colon, and perhaps the number of a
database after a slash. Tabs and line ends in it do not count. -/
def parse (address : String) : Except RedisError Endpoint :=
  let cs := address.toList.filter fun c => c ≠ '\t' && c ≠ '\n' && c ≠ '\r'
  let (authority, user) := afterUser (cs.takeWhile (!endsAuthority ·))
  let path := (cs.dropWhile (!endsAuthority ·)).takeWhile fun c => c ≠ '?' && c ≠ '#'
  match hostPort? authority with
  | none => .error (invalid "Redis URL did not parse")
  | some ([], _) =>
    .error (invalid (if user then "Redis URL did not parse" else "Missing hostname"))
  | some (host, port) =>
    match db? path with
    | none => .error (invalid "Invalid database number")
    | some db => .ok { host := String.ofList host, port, db }

/-- The server that a URL names. -/
def ofUrl (url : String) : Except RedisError Endpoint :=
  let scheme := "redis://".toList
  if scheme.isPrefixOf url.toList then parse (String.ofList (url.toList.drop scheme.length))
  else .error (invalid "Redis URL did not parse")

/-- Whether the host is known without asking for its name: it is given by numbers, or it is this
machine. -/
def isKnown (e : Endpoint) : Bool :=
  let cs := e.host.toList
  let groups := Text.splitOn '.' cs
  e.host = "localhost" || cs.contains ':'
    || (groups.length == 4 && groups.all fun g =>
      1 ≤ g.length && g.length ≤ 3 && g.all Text.isDigit && Text.number 10 g < 256)

end Endpoint

end QuorumPool
