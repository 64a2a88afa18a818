import PostRun.Files.Tree

/-!
# Access to files

What the programs ask of a file system is little: to read a file of text, and to
write one.  A monad that can do both runs them, be it the one of a state that is a
file tree or one that reaches the files of a machine.

In the first a whole run is a function from one tree to the next.
-/

namespace PostRun
namespace Files

/-- Reading and writing files of text. -/
class Access (m : Type → Type) where
  /-- The text of the file at a path. -/
  readText (path : String) : m (Except IoError String)
  /-- Writes a file of text, in place of one that is there. -/
  writeText (path text : String) : m (Except IoError Unit)

export Access (readText writeText)

namespace Tree

/-- The tree after a try to write, which is the same tree if that failed. -/
def store (t : Tree) (path text : String) : Except IoError Unit × Tree :=
  match t.writeText path text with
  | .ok t => (.ok (), t)
  | .error e => (.error e, t)

instance : Access (StateM Tree) where
  readText path t := (t.readText path, t)
  writeText path text t := t.store path text

theorem store_of_ok {t u : Tree} {path text : String} (h : t.writeText path text = .ok u) :
    t.store path text = (.ok (), u) := by simp [store, h]

theorem store_of_error {t : Tree} {path text : String} {e : IoError}
    (h : t.writeText path text = .error e) : t.store path text = (.error e, t) := by
  simp [store, h]

end Tree
end Files
end PostRun
