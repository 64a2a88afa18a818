import PostRun.Files.Glob
import PostRun.Files.IoError
import PostRun.Files.Tree
import PostRun.Log

/-!
# Expanding a path pattern

A path pattern is cut at its slashes.  A component that holds a wildcard stands for the
names of a directory that match it, and every other component for itself.  The paths
found are spelled as the pattern spells them, so a doubled slash stays doubled.

A path is kept as long as it is a directory, and at the end if it is something else.
A wildcard stands for a name with a dot in front only if it starts with a dot itself.
A directory that cannot be listed holds nothing, as for a shell.
-/

namespace PostRun
namespace Files

/-- What expansion asks of a file system: the kind of thing at a path, and the names in a
directory. -/
structure Surroundings where
  kind? : String → Option Kind
  names : String → Except IoError (List String)

/-- A tree as the surroundings of its root. -/
def Tree.surroundings (t : Tree) : Surroundings := ⟨t.kind?, t.names⟩

/-- Why a path pattern has no expansion: the component that is refused. -/
structure PatternError where
  component : String
  cause : GlobError
  deriving DecidableEq

namespace PatternError

/-- The wording of a refused component. -/
def message (e : PatternError) : String :=
  "error parsing glob '" ++ e.component ++ "': " ++ e.cause.message

end PatternError

namespace Surroundings

/-- Whether a path is of the kind that its place in the pattern asks for. -/
def isKind (s : Surroundings) (path : String) (isLast : Bool) : Bool :=
  match s.kind? path with
  | some .directory => !isLast
  | some .file => isLast
  | none => false

/-- A path as it goes on: a directory is followed by a slash. -/
def spell (path : String) (isLast : Bool) : String := if isLast then path else path ++ "/"

/-- The spelled path for a name in a directory, if it is of the right kind. -/
def extend (s : Surroundings) (isLast : Bool) (directory name : String) : Option String :=
  let path := directory ++ name
  if s.isKind path isLast then some (spell path isLast) else none

/-- How a directory is named when it is listed: the working directory is a dot. -/
def listedAs (directory : String) : String := if directory = "" then "." else directory

/-- The names in a directory, none if it cannot be listed. -/
def namesIn (s : Surroundings) (directory : String) : Logged (List String) :=
  match s.names (listedAs directory) with
  | .ok names => pure names
  | .error e => do
      Logged.say .debug ("Skipping " ++ listedAs directory ++ ": " ++ e.message)
      return []

/-- Whether text starts with a dot. -/
def isDotted (text : String) : Bool := text.toList.head? = some '.'

/-- Whether a pattern stands for a name. -/
def stands (component : String) (glob : Glob) (name : String) : Bool :=
  (!isDotted name || isDotted component) && glob.accepts name

/-- The directories or files that one component makes of the directories found so far. -/
def expandComponent (s : Surroundings) (component : String) (isLast : Bool)
    (found : List String) : Logged (Except PatternError (List String)) :=
  if component = "" then pure (.ok (found.map (· ++ "/")))
  else if Glob.isPattern component then
    match Glob.parse component with
    | .error e => pure (.error ⟨component, e⟩)
    | .ok glob => do
        let expanded ← found.mapM fun directory => do
          let names ← s.namesIn directory
          return (names.filter (stands component glob)).filterMap (s.extend isLast directory)
        return .ok expanded.flatten
  else pure (.ok (found.filterMap fun directory => s.extend isLast directory component))

/-- The paths that the components make of the directories found so far. -/
def expandFrom (s : Surroundings) : List String → List String →
    Logged (Except PatternError (List String))
  | [], found => pure (.ok found)
  | component :: rest, found => do
      match ← s.expandComponent component rest.isEmpty found with
      | .error e => return .error e
      | .ok found => s.expandFrom rest found

/-- The paths that a pattern stands for, ascending. -/
def expand (s : Surroundings) (pattern : String) : Logged (Except PatternError (List String)) := do
  let found ← s.expandFrom (Tree.components pattern) [""]
  return found.map fun paths => paths.mergeSort fun a b => decide (a ≤ b)

end Surroundings
end Files
end PostRun
