import QuorumPool.Text.Digits

namespace QuorumPool.Document.Toml

def isBlank (c : Char) : Bool := c = ' ' || c = '\t'

/-- A character that stands in no comment and no string. -/
def isControl (c : Char) : Bool := (c.toNat < 0x20 && c != '\t') || c.toNat == 0x7F

def skipBlanks (cs : List Char) : List Char := cs.dropWhile isBlank

/-- Drops blanks, line ends and comments at the front; `comment` tells whether a comment is open. A
carriage return belongs to a line end. -/
def skipGaps : (comment : Bool) → List Char → Option (List Char)
  | _, [] => some []
  | _, '\n' :: rest => skipGaps false rest
  | _, '\r' :: '\n' :: rest => skipGaps false rest
  | true, c :: rest => if isControl c then none else skipGaps true rest
  | false, '#' :: rest => skipGaps true rest
  | false, c :: rest => if isBlank c then skipGaps false rest else some (c :: rest)

/-- Drops the rest of a line, which may hold blanks and a comment only. -/
def endLine : (comment : Bool) → List Char → Option (List Char)
  | _, [] => some []
  | _, '\n' :: rest => some rest
  | _, '\r' :: '\n' :: rest => some rest
  | true, c :: rest => if isControl c then none else endLine true rest
  | false, '#' :: rest => endLine true rest
  | false, c :: rest => if isBlank c then endLine false rest else none

/-- What the characters so far of a string leave open: nothing, an escape that has just begun, one
by code of which digits are missing, or the gap that an escaped line end makes, which has or has
not come to that line end. -/
inductive Opening where
  | plain
  | escape
  | code (left value : Nat)
  | gap (ended : Bool)

/-- The character that a short escape stands for. -/
def shortEscape? : Char → Option Char
  | '"' => some '"'
  | '\\' => some '\\'
  | 'b' => some '\x08'
  | 'e' => some '\x1b'
  | 'f' => some '\x0c'
  | 'n' => some '\n'
  | 'r' => some '\r'
  | 't' => some '\t'
  | _ => none

/-- How many digits an escape by code has. -/
def codeLength? : Char → Option Nat
  | 'x' => some 2
  | 'u' => some 4
  | 'U' => some 8
  | _ => none

/-- Puts a character in front of what was read after it. -/
def push (c : Char) (result : Option (List Char × List Char)) : Option (List Char × List Char) :=
  result.map fun (content, rest) => (c :: content, rest)

/-- The content of a string with escapes after its opening quote, and what follows the closing
one. -/
def basic? : Opening → List Char → Option (List Char × List Char)
  | _, [] => none
  | .plain, '"' :: rest => some ([], rest)
  | .plain, '\\' :: rest => basic? .escape rest
  | .plain, c :: rest => if isControl c then none else push c (basic? .plain rest)
  | .escape, c :: rest =>
    match codeLength? c with
    | some n => basic? (.code n 0) rest
    | none => (shortEscape? c).bind fun c => push c (basic? .plain rest)
  | .code left value, c :: rest =>
    (Text.digit? c).bind fun d =>
      if left ≠ 1 then basic? (.code (left - 1) (value * 16 + d)) rest
      else (Text.char? (value * 16 + d)).bind fun c => push c (basic? .plain rest)
  | .gap _, _ => none

/-- The content of a string of several lines with escapes, after its opening quotes, and what
follows the closing ones. Up to two quotes before the closing ones belong to the content. -/
def basicLines? : Opening → List Char → Option (List Char × List Char)
  | _, [] => none
  | .plain, '"' :: '"' :: '"' :: '"' :: '"' :: rest => some (['"', '"'], rest)
  | .plain, '"' :: '"' :: '"' :: '"' :: rest => some (['"'], rest)
  | .plain, '"' :: '"' :: '"' :: rest => some ([], rest)
  | .plain, '\\' :: rest => basicLines? .escape rest
  | .plain, '\n' :: rest => push '\n' (basicLines? .plain rest)
  | .plain, '\r' :: '\n' :: rest => push '\r' (push '\n' (basicLines? .plain rest))
  | .plain, c :: rest => if isControl c then none else push c (basicLines? .plain rest)
  | .escape, '\n' :: rest => basicLines? (.gap true) rest
  | .escape, '\r' :: '\n' :: rest => basicLines? (.gap true) rest
  | .escape, c :: rest =>
    if isBlank c then basicLines? (.gap false) rest
    else match codeLength? c with
      | some n => basicLines? (.code n 0) rest
      | none => (shortEscape? c).bind fun c => push c (basicLines? .plain rest)
  | .code left value, c :: rest =>
    (Text.digit? c).bind fun d =>
      if left ≠ 1 then basicLines? (.code (left - 1) (value * 16 + d)) rest
      else (Text.char? (value * 16 + d)).bind fun c => push c (basicLines? .plain rest)
  | .gap _, '\n' :: rest => basicLines? (.gap true) rest
  | .gap _, '\r' :: '\n' :: rest => basicLines? (.gap true) rest
  | .gap true, '"' :: '"' :: '"' :: '"' :: '"' :: rest => some (['"', '"'], rest)
  | .gap true, '"' :: '"' :: '"' :: '"' :: rest => some (['"'], rest)
  | .gap true, '"' :: '"' :: '"' :: rest => some ([], rest)
  | .gap true, '\\' :: rest => basicLines? .escape rest
  | .gap ended, c :: rest =>
    if isBlank c then basicLines? (.gap ended) rest
    else if ended && !isControl c then push c (basicLines? .plain rest)
    else none

/-- The content of a string without escapes. -/
def literal? : List Char → Option (List Char × List Char)
  | [] => none
  | '\'' :: rest => some ([], rest)
  | c :: rest => if isControl c then none else push c (literal? rest)

/-- The content of a string of several lines without escapes. -/
def literalLines? : List Char → Option (List Char × List Char)
  | [] => none
  | '\'' :: '\'' :: '\'' :: '\'' :: '\'' :: rest => some (['\'', '\''], rest)
  | '\'' :: '\'' :: '\'' :: '\'' :: rest => some (['\''], rest)
  | '\'' :: '\'' :: '\'' :: rest => some ([], rest)
  | '\n' :: rest => push '\n' (literalLines? rest)
  | '\r' :: '\n' :: rest => push '\r' (push '\n' (literalLines? rest))
  | c :: rest => if isControl c then none else push c (literalLines? rest)

/-- Drops the line end that may follow the opening quotes of a string of several lines. -/
def dropLineEnd : List Char → List Char
  | '\n' :: rest => rest
  | '\r' :: '\n' :: rest => rest
  | cs => cs

/-- A string of any form. -/
def string? : List Char → Option (String × List Char)
  | '"' :: '"' :: '"' :: rest => finish (basicLines? .plain (dropLineEnd rest))
  | '"' :: rest => finish (basic? .plain rest)
  | '\'' :: '\'' :: '\'' :: rest => finish (literalLines? (dropLineEnd rest))
  | '\'' :: rest => finish (literal? rest)
  | _ => none
where
  finish (result : Option (List Char × List Char)) : Option (String × List Char) :=
    result.map fun (content, rest) => (String.ofList content, rest)

/-- A character of a bare key. -/
def isKeyChar (c : Char) : Bool := c.isAlphanum || c = '_' || c = '-'

/-- One part of a key: bare, or a string of one line. -/
def keyPart? : List Char → Option (String × List Char)
  | '"' :: rest => string?.finish (basic? .plain rest)
  | '\'' :: rest => string?.finish (literal? rest)
  | cs =>
    match cs.takeWhile isKeyChar with
    | [] => none
    | part => some (String.ofList part, cs.dropWhile isKeyChar)

/-- A key: parts joined by points, with blanks around each. Every part has one less of `fuel`. -/
def key? : (fuel : Nat) → List Char → Option (List String × List Char)
  | 0, _ => none
  | fuel + 1, cs => do
    let (part, rest) ← keyPart? (skipBlanks cs)
    match skipBlanks rest with
    | '.' :: rest =>
      let (parts, rest) ← key? fuel rest
      some (part :: parts, rest)
    | rest => some ([part], rest)

end QuorumPool.Document.Toml
