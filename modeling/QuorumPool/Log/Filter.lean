import QuorumPool.Event
import QuorumPool.Settings.Basic
import QuorumPool.Text.Blank
import QuorumPool.Text.Digits

namespace QuorumPool.Log

/-- Sets the level of the topics that begin with `target`; without a level they are not logged at
all. -/
structure Directive where
  target : String
  level : Option Level
deriving DecidableEq, Repr

/-- A filter: its directives in the order in which they are given. -/
abbrev Filter := List Directive

namespace Directive

def covers (d : Directive) (topic : String) : Bool := d.target.toList.isPrefixOf topic.toList

/-- Of two directives that cover a topic, the one that decides: the one with the longer target, and
the later one, `b`, if they are equally long. -/
def decisive (a b : Directive) : Directive :=
  if b.target.length < a.target.length then a else b

/-- The level that a word names: its name in any case, `off`, or its number. -/
def level? (word : List Char) : Option (Option Level) :=
  let name := String.ofList (word.map Char.toLower)
  let digits := match word with
    | '+' :: rest => rest
    | cs => cs
  match Level.all.find? (·.name = name) with
  | some level => some (some level)
  | none =>
    if name = "off" then some none
    else if digits.isEmpty || !digits.all Text.isDigit then none
    else match Text.number 10 digits with
      | 0 => some none
      | n => (Level.all.find? (·.rank = n)).map some

/-- A character that a directive may begin with. A bracket begins the name of a span; no event of the
library lies in one, and so no topic begins with it. -/
def beginsWell (c : Char) : Bool :=
  c.isAlphanum || c = '-' || c = ':' || c = '_' || c = '[' || 0x7F < c.toNat

/-- The directive that a text writes: a level, a target, or a target and a level with `=` between
them. A target without a level is logged in full. Blanks around a directive are parts of it, except
that the place of `=` is counted from behind those in front. -/
def parse? (text : List Char) : Option Directive :=
  let bare := Text.trim text
  let place := (bare.takeWhile (· ≠ '=')).length
  if !bare.head?.any beginsWell then none
  else if place = bare.length then
    match level? text with
    | some level => some { target := "", level }
    | none => some { target := String.ofList text, level := some .trace }
  else
    let target := String.ofList (text.take place)
    match text.drop (place + 1) with
    | [] => some { target, level := some .trace }
    | word => (level? word).map fun level => { target, level }

end Directive

namespace Filter

/-- Whether an event passes the filter. -/
def admits (f : Filter) (e : Event) : Bool :=
  match f.filter (·.covers e.topic) with
  | [] => false
  | d :: rest => (rest.foldl Directive.decisive d).level.any (e.level.rank ≤ ·.rank)

/-- The filter that directives between commas write; without any directive errors are admitted
only. -/
def parse? (text : String) : Option Filter :=
  (((Text.splitOn ',' text.toList).filter (!·.isEmpty)).mapM Directive.parse?).map fun
    | [] => [{ target := "", level := some .error }]
    | directives => directives

/-- The topics of the library's own events. -/
def ownTopics : List String := ["shardpool", "shardpool_core"]

/-- The filter that admits the library's own events up to a level. -/
def ofLevel (level : Level) : Filter := ownTopics.map fun target => { target, level := some level }

/-- The filter that the environment asks for, and otherwise the one of the level. A filter that
cannot be read does not count. -/
def choose (asked : Option String) (level : Level) : Filter :=
  (asked.bind parse?).getD (ofLevel level)

end Filter

end QuorumPool.Log

namespace QuorumPool

/-- The level up to which events are logged; a verbose program logs debugging events at least. -/
def LogSettings.effectiveLevel (s : LogSettings) (verbose : Bool) : Level :=
  if verbose then Level.max .debug s.level else s.level

end QuorumPool
