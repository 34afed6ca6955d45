import CoverageAccess.Table
import CoverageAccess.Text.Split
import CoverageAccess.Text.Utf8
/-!
# Files

A `Folder` holds files under their paths, which are relative to the folder itself. It is given as a
whole, so reading from it is a function. A path is followed name by name, as the system does it: a
name leads on only from a directory, two dots lead to the directory above, and what lies outside of
the folder is not known, apart from what every system has. The refusals are worded as the system
words them.
-/

namespace CoverageAccess

namespace Files

/-- Why a file cannot be read. -/
inductive Failure where
  | absent
  | directory
  | underFile
  | longName
  | nullInName
  | notText
  deriving DecidableEq, Repr

/-- The system's wording of why a file cannot be read. -/
def Failure.text : Failure → String
  | .absent => "No such file or directory (os error 2)"
  | .directory => "Is a directory (os error 21)"
  | .underFile => "Not a directory (os error 20)"
  | .longName => "File name too long (os error 36)"
  | .nullInName => "file name contained an unexpected NUL byte"
  | .notText => "stream did not contain valid UTF-8"

def isAbsolute (path : String) : Bool :=
  Text.startsWith "/" path

/-- The path of `name` as seen from the directory `directory`. -/
def join (directory name : String) : String :=
  if isAbsolute name || directory == "" then name
  else if (Text.dropTail? ['/'] directory.toList).isSome then directory ++ name
  else s!"{directory}/{name}"

/-- The directory of a path: what precedes its last slash. -/
def parent (path : String) : String :=
  match Text.cutLast? (· == '/') path.toList with
  | some ([], _) => "/"
  | some (directory, _) => String.ofList directory
  | none => ""

/-- The most bytes that a name may have. -/
def longestName : Nat := 255

/-- The most bytes that a path may have. -/
def longestPath : Nat := 4095

/-- A directory from which names are followed. -/
inductive Origin where
  | folder
  /-- A directory above the folder, with this many directories between them. -/
  | above (between : Nat)
  | root
  deriving DecidableEq, Repr

def Origin.parent : Origin → Origin
  | folder => above 0
  | above n => above (n + 1)
  | root => root

/-- Where a path leads: down some names from a directory. -/
structure Place where
  origin : Origin
  names : List String
  deriving DecidableEq, Repr

namespace Place

def parent (p : Place) : Place :=
  if p.names = [] then ⟨p.origin.parent, []⟩ else ⟨p.origin, p.names.dropLast⟩

/-- The place to which one more name leads. No name at all and a dot stay where they are. -/
def step (p : Place) (name : String) : Place :=
  if name = "" ∨ name = "." then p
  else if name = ".." then p.parent
  else ⟨p.origin, p.names ++ [name]⟩

end Place

def names (path : String) : List String :=
  Text.fields '/' path

def start (path : String) : Place :=
  ⟨if isAbsolute path then .root else .folder, []⟩

def asText (content : List UInt8) : Except Failure String :=
  match Utf8.decode? content with
  | some s => .ok s
  | none => .error .notText

/-- A file as it stands: its content, and the time of its last change. -/
structure Stamped where
  stamp : Nat
  content : List UInt8
  deriving DecidableEq, Repr

/-- What there is under a path. -/
abbrev State := Except Failure Stamped

/-- What answers for the contents of files. -/
abbrev Reader (m : Type → Type) := String → m (Except Failure (List UInt8))

end Files

/-- Files under their paths. -/
structure Folder where
  files : List (String × List UInt8)

namespace Folder

open Files

/-- The file at a place. Of the files outside of the folder only the empty device is known. -/
def content? (f : Folder) (p : Place) : Option (List UInt8) :=
  match p.origin with
  | .folder => (f.files.find? fun e => names e.1 == p.names).map Prod.snd
  | .above _ => none
  | .root => if p.names = ["dev", "null"] then some [] else none

/-- There is a directory at the place. Every system has a directory for devices and one for what is
temporary. -/
def isDirectory (f : Folder) (p : Place) : Bool :=
  p.names == [] ||
    match p.origin with
    | .folder =>
      f.files.any fun e => p.names.length < (names e.1).length && p.names.isPrefixOf (names e.1)
    | .above _ => false
    | .root => p.names == ["dev"] || p.names == ["tmp"]

/-- Follows some names from a place. -/
def follow (f : Folder) (p : Place) : List String → Except Failure Place
  | [] => .ok p
  | name :: rest =>
    if !f.isDirectory p then .error .underFile
    else if longestName < name.utf8ByteSize then .error .longName
    else
      let q := p.step name
      if f.isDirectory q || (f.content? q).isSome then f.follow q rest else .error .absent

/-- The content of a file. -/
def read (f : Folder) (path : String) : Except Failure (List UInt8) :=
  if Text.mentions '\x00' path then .error .nullInName
  else if path = "" then .error .absent
  else if longestPath < path.utf8ByteSize then .error .longName
  else do
    let p ← f.follow (start path) (names path)
    match f.content? p with
    | some content => return content
    | none => .error .directory

def readText (f : Folder) (path : String) : Except Failure String := do
  asText (← f.read path)

/-- From a file no name leads on. -/
theorem follow_cons_of_not_isDirectory {f : Folder} {p : Place} (name : String)
    (rest : List String) (h : f.isDirectory p = false) :
    f.follow p (name :: rest) = .error .underFile := by
  simp [follow, h]

end Folder

end CoverageAccess
