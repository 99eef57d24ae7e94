import QuorumPool.IoError
import QuorumPool.Text.Blank

namespace QuorumPool.Cli

/-- A tree of files. A place in it is the list of the names that lead there from the root. -/
structure FileTree where
  /-- The directories below the root. -/
  directories : List (List String)
  /-- The files with their texts. -/
  files : List (List String × String)
  /-- The directory from which paths lead that do not begin at the root. -/
  home : List String := []

namespace FileTree

def isDirectory (t : FileTree) (place : List String) : Bool :=
  place.isEmpty || t.directories.contains place

def text? (t : FileTree) (place : List String) : Option String := t.files.lookup place

/-- The place one step away from a place. -/
def step (place : List String) (name : String) : List String :=
  if name = "" ∨ name = "." then place
  else if name = ".." then place.dropLast
  else place ++ [name]

/-- The place to which names lead. Every step starts in a directory; the last one may lead to where
nothing is. -/
def walk (t : FileTree) : List String → List String → Except OsError (List String)
  | place, [] => .ok place
  | place, name :: rest =>
    if t.isDirectory place then
      if 255 < name.utf8ByteSize then .error .nameTooLong else walk t (step place name) rest
    else if (t.text? place).isSome then .error .notDirectory
    else .error .noEntry

/-- The place to which a path leads, and whether the path ends in a slash. -/
def locate (t : FileTree) (path : String) : Except IoError (List String × Bool) :=
  if path.contains '\x00' then
    .error (.told .invalidInput "file name contained an unexpected NUL byte")
  else if path.isEmpty then .error (.system .noEntry)
  else if 4095 < path.utf8ByteSize then .error (.system .nameTooLong)
  else
    let names := (Text.splitOn '/' path.toList).map String.ofList
    let kept := (names.reverse.dropWhile (·.isEmpty)).reverse
    let start := if path.startsWith "/" then [] else t.home
    match t.walk start kept with
    | .ok place => .ok (place, kept.length < names.length)
    | .error e => .error (.system e)

/-- What reading the file at a path gives. -/
def read (t : FileTree) (path : String) : Except IoError String := do
  let (place, slash) ← t.locate path
  if t.isDirectory place then throw (.system .isDirectory)
  match t.text? place with
  | none => throw (.system .noEntry)
  | some text => if slash then throw (.system .notDirectory) else return text

/-- What is in the way of writing at the end of the file at a path, which need not be there yet. -/
def appendFault? (t : FileTree) (path : String) : Option IoError :=
  match t.locate path with
  | .error e => some e
  | .ok (place, slash) => if slash || t.isDirectory place then some (.system .isDirectory) else none

end FileTree

end QuorumPool.Cli
