import PostRun.Files.IoError
import PostRun.Text.NameMap
import PostRun.Text.Pieces

/-!
# File trees

A file tree is a finite map from the places below a root to what is there.  A place is
written as the names on the way to it, joined by slashes; every directory on the way
is a place of its own.

## Paths

A path is walked from the root, component by component.  An empty component and a dot
stay, two dots go back, and any other name goes down; all of them need a directory to
start from.  A path that starts with a slash leads out of the tree and is never found.
-/

namespace PostRun
namespace Files

/-- What is at a place. -/
inductive Content where
  | file (bytes : ByteArray)
  | directory

/-- What kind of thing is at a place. -/
inductive Kind where
  | file
  | directory
  deriving DecidableEq

/-- The kind of a content. -/
def Content.kind : Content → Kind
  | .file _ => .file
  | .directory => .directory

/-- The text that bytes are in UTF-8. -/
def textOf (bytes : ByteArray) : Except IoError String :=
  match String.fromUTF8? bytes with
  | some text => .ok text
  | none => .error .invalidUtf8

/-- The names from the root to a place, the last one first. -/
abbrev Place := List String

/-- A place as one text. -/
def Place.text (p : Place) : String := "/".intercalate p.reverse

/-- A tree of files and directories; the root is not listed. -/
structure Tree where
  contents : NameMap Content

namespace Tree

/-- The tree with nothing below its root. -/
def empty : Tree := ⟨.empty⟩

/-- What is at a place. -/
def at? (t : Tree) : Place → Option Content
  | [] => some .directory
  | p => t.contents.find? (Place.text p)

/-- The components of a path. -/
def components (path : String) : List String :=
  (Text.pieces '/' path.toList).map String.ofList

/-- The longest name that a directory can hold, in bytes. -/
def nameLimit : Nat := 255

/-- The bytes that a path has to stay below. -/
def pathLimit : Nat := 4096

/-- One step of a path from a place that exists. -/
def step (t : Tree) (here : Place) (name : String) : Except IoError Place :=
  match t.at? here with
  | none => .error .notFound
  | some (.file _) => .error .notADirectory
  | some .directory =>
      if name = "" ∨ name = "." then .ok here
      else if name = ".." then .ok here.tail
      else if nameLimit < name.utf8ByteSize then .error .nameTooLong
      else .ok (name :: here)

/-- The place that components lead to.  The last name may be absent. -/
def walk (t : Tree) : Place → List String → Except IoError Place
  | here, [] => .ok here
  | here, name :: names => do t.walk (← t.step here name) names

/-- The place that a path leads to, whether or not something is there. -/
def place (t : Tree) (path : String) : Except IoError Place :=
  if path.toList.contains '\x00' then .error .nulInName
  else if path = "" ∨ path.toList.head? = some '/' then .error .notFound
  else if pathLimit ≤ path.utf8ByteSize then .error .nameTooLong
  else t.walk [] (components path)

/-- What a path leads to. -/
def lookup (t : Tree) (path : String) : Except IoError Content := do
  match t.at? (← t.place path) with
  | some c => return c
  | none => throw .notFound

/-- The kind of thing at a path, if there is one. -/
def kind? (t : Tree) (path : String) : Option Kind :=
  match t.lookup path with
  | .ok c => some c.kind
  | .error _ => none

/-- The bytes of the file at a path. -/
def readBytes (t : Tree) (path : String) : Except IoError ByteArray := do
  match ← t.lookup path with
  | .file bytes => return bytes
  | .directory => throw .isADirectory

/-- The text of the file at a path. -/
def readText (t : Tree) (path : String) : Except IoError String :=
  t.readBytes path >>= textOf

/-- Writes a file, in place of one that is there.  The directory must be there. -/
def writeBytes (t : Tree) (path : String) (bytes : ByteArray) : Except IoError Tree := do
  let here ← t.place path
  match t.at? here with
  | some .directory => throw .isADirectory
  | _ => return ⟨t.contents.insert (Place.text here) (.file bytes)⟩

/-- Writes a file of text. -/
def writeText (t : Tree) (path text : String) : Except IoError Tree :=
  t.writeBytes path text.toUTF8

/-- The name of a place directly below another. -/
def childName? (directory : Place) (place : String) : Option String :=
  match (components place).reverse with
  | [] => none
  | name :: above => if above = directory then some name else none

/-- The names in the directory at a path. -/
def names (t : Tree) (path : String) : Except IoError (List String) := do
  let here ← t.place path
  match t.at? here with
  | none => throw .notFound
  | some (.file _) => throw .notADirectory
  | some .directory => return t.contents.names.filterMap (childName? here)

/-- Makes the directory at a place, and those above it. -/
def makeDirectories (t : Tree) : Place → Tree
  | [] => t
  | name :: above =>
      let t := t.makeDirectories above
      ⟨t.contents.alter (Place.text (name :: above)) fun old => old.getD .directory⟩

/-- The tree without a place and all that is below it. -/
def remove (t : Tree) (place : Place) : Tree :=
  let isAway (p : String) : Bool := place.reverse.isPrefixOf (components p)
  ⟨⟨t.contents.entries.filter fun e => !isAway e.1, t.contents.sorted.filter _⟩⟩

/-- All places, a slash behind every directory, ascending. -/
def listing (t : Tree) : List String :=
  (t.contents.entries.map fun e =>
    match e.2 with
    | .file _ => e.1
    | .directory => e.1 ++ "/").mergeSort fun a b => decide (a ≤ b)

end Tree
end Files
end PostRun
