import PostRun.Citation.Page
import PostRun.Files.Access

/-!
# The citation list of a directory

The citation list of generated documentation is a page of a fixed name in its
directory.  The page is read before the bibliography, and it is written once all of it
was passed on, so a failure leaves every file as it was.
-/

namespace PostRun
namespace Citation

/-- The name of the page. -/
def pageName : String := "citelist.html"

/-- The path of a name in a directory. -/
def pathIn (directory name : String) : String :=
  if directory = "" ∨ directory.toList.getLast? = some '/' then directory ++ name
  else directory ++ "/" ++ name

/-- The path of the citation list of a directory. -/
def pagePath (directory : String) : String := pathIn directory pageName

/-- The bibliography in the text of a file. -/
def bibliographyIn (path : String) (source : Except Files.IoError String) :
    Except Failure Bib.Bibliography := do
  (Bib.Bibliography.parse (← source.mapError (.io path))).mapError (.bibliography (some path))

variable {m : Type → Type} [Monad m] [Files.Access m]

/-- Reads the bibliography in a file. -/
def readBibliography (path : String) : m (Except Failure Bib.Bibliography) :=
  return bibliographyIn path (← Files.readText path)

/-- Writes a page that was passed on; gives the number of its links. -/
def storePage (path : String) :
    Except Failure (List Char × Nat) → m (Except Failure Nat)
  | .error e => return .error e
  | .ok (page, count) =>
      return ((← Files.writeText path (String.ofList page)).mapError (.io path)).map fun _ => count

/-- Appends links to the citation list of a directory; gives the number of links. -/
def appendInDirectory (directory references : String) : m (Logged (Except Failure Nat)) := do
  let path := pagePath directory
  match ← Files.readText path with
  | .error e => return pure (.error (.io path e))
  | .ok page =>
      match ← readBibliography references with
      | .error e => return pure (.error e)
      | .ok b =>
          let passed := appendLinks b page.toList
          return ⟨passed.records, ← storePage path passed.value⟩

end Citation
end PostRun
