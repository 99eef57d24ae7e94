import QuorumPool.Scripted.Error
import QuorumPool.Text.Digits

namespace QuorumPool

/-- What a server says. -/
inductive RedisReply where
  | simple (text : String)
  | error (line : String)
  | bulk (bytes : ByteArray)
  | integer (i : Int)
  | nil
  | array (items : List RedisReply)
deriving Inhabited

/-- The kind of value that a client asks for. -/
inductive ReplyKind where
  | text | integer | unit | optional
deriving DecidableEq, Repr

/-- A value read from a reply. -/
inductive ReplyValue where
  | text (s : String)
  | integer (i : Int)
  | unit
  | absent
deriving DecidableEq, Repr

namespace RedisReply

mutual

/-- The first error in a reply, which may lie inside of arrays. -/
def error? : RedisReply → Option RedisError
  | error line => some (.ofLine line)
  | array items => errorAmong? items
  | _ => none

def errorAmong? : List RedisReply → Option RedisError
  | [] => none
  | item :: items => (error? item).or (errorAmong? items)

end

/-- The complaint about a reply of the wrong kind. -/
def wrongKind (detail : String) : RedisError :=
  .kinded .typeError "Response was of incompatible type" (some detail)

/-- The complaint about bytes that are no text. -/
def noText : RedisError := .kinded .typeError "Invalid UTF-8" none

def toText : RedisReply → Except RedisError String
  | simple s => pure s
  | bulk bytes => (String.fromUTF8? bytes).elim (throw noText) pure
  | integer i => pure (toString i)
  | _ => throw (wrongKind "Response type not string compatible.")

/-- The whole number that a text writes, with or without a sign, if 64 bits hold it. -/
def integer? (text : String) : Option Int :=
  let (negative, digits) := match text.toList with
    | '-' :: rest => (true, rest)
    | '+' :: rest => (false, rest)
    | cs => (false, cs)
  if digits.isEmpty || !digits.all Text.isDigit then none
  else
    let n : Int := Text.number 10 digits
    let i := if negative then -n else n
    if -Int.pow 2 63 ≤ i ∧ i < Int.pow 2 63 then some i else none

def toInteger : RedisReply → Except RedisError Int
  | integer i => pure i
  | simple s => read s
  | bulk bytes => (String.fromUTF8? bytes).elim (throw noText) read
  | _ => throw (wrongKind "Response type not convertible to numeric.")
where
  read (s : String) : Except RedisError Int :=
    (integer? s).elim (throw (wrongKind "Could not convert from string.")) pure

/-- The reply, unless there is an error in it. -/
def checked (r : RedisReply) : Except RedisError RedisReply :=
  match r.error? with
  | some e => throw e
  | none => pure r

/-- Reads a reply as a value of the kind asked for. An error in the reply comes first. -/
def read (kind : ReplyKind) (r : RedisReply) : Except RedisError ReplyValue := do
  match kind, ← r.checked with
  | .text, r => .text <$> r.toText
  | .integer, r => .integer <$> r.toInteger
  | .unit, _ => pure .unit
  | .optional, nil => pure .absent
  | .optional, r => .text <$> r.toText

end RedisReply

end QuorumPool
