import PostRun.Files.Access
import PostRun.Xdmf.Field
import PostRun.Xdmf.Markup
import PostRun.Xdmf.MeshSize
import PostRun.Xdmf.Selection

/-!
# The index document

An index lists the observations of a run; each has one grid for every volume file.  A
grid describes a mesh and its fields and points at the datasets of the file, so that no
data is copied.

The document is data first, and a markup tree after that.  The data is made from the
files and can fail; the tree and its text cannot.
-/

namespace PostRun
namespace Xdmf

/-- A dataset of an observation in a file. -/
structure DatasetPath where
  file : String
  observation : String
  dataset : String
  deriving DecidableEq

/-- A dataset as it is pointed at. -/
def DatasetPath.text (p : DatasetPath) : String :=
  p.file ++ ":/" ++ Volume.groupName ++ "/" ++ p.observation ++ "/" ++ p.dataset

/-- The mesh and the fields of one file at one observation. -/
structure Grid where
  file : String
  observation : String
  size : MeshSize
  fields : List Field
  deriving DecidableEq

namespace Grid

/-- A dataset of the grid. -/
def path (g : Grid) (dataset : String) : DatasetPath := ⟨g.file, g.observation, dataset⟩

/-- An element that holds the path of a dataset. -/
def pointer (g : Grid) (attributes : List Attribute) (dataset : String) : Markup :=
  .element ⟨"DataItem", attributes⟩ 2 [.text (g.path dataset).text]

/-- The element that points at a dataset with one number for each point. -/
def item (g : Grid) (dataset : String) : Markup :=
  g.pointer [.tight "Dimensions" (" " ++ toString g.size.points), .tight "NumberType" "Double",
    .tight "Precision" "8", .tight "Format" "HDF5"] dataset

/-- The element that describes the cells. -/
def topology (g : Grid) : Markup :=
  .element ⟨"Topology", [.tight "TopologyType" "Hexahedron",
      .tight "NumberOfElements" (toString g.size.cells)]⟩ 2
    [g.pointer [.tight "Dimensions" (toString g.size.cells ++ " 8"), .tight "NumberType" "Int",
      .tight "Format" "HDF5"] Volume.connectivityName]

/-- The element that describes the points. -/
def geometry (g : Grid) : Markup :=
  .element ⟨"Geometry", [.tight "Type" "X_Y_Z"]⟩ 2 (Volume.coordinateNames.map g.item)

/-- The content of the element of a field. -/
def fieldContent (g : Grid) : Field → List Markup
  | .scalar name => [g.item name]
  | .vector base =>
      [.element ⟨"DataItem", [.tight "Dimensions" (" " ++ toString g.size.points ++ " 3"),
          ⟨"ItemType", "Function", true⟩, ⟨"Function", "JOIN($0,$1,$2)", true⟩]⟩ 0
        ((Field.vector base).components.map g.item)]

/-- What kind of field an element describes. -/
def fieldType : Field → String
  | .scalar _ => "Scalar"
  | .vector _ => "Vector"

/-- The element that describes a field. -/
def fieldElement (g : Grid) (f : Field) : Markup :=
  .element ⟨"Attribute", [.tight "Name" f.name, .tight "AttributeType" (fieldType f),
    .tight "Center" "Node"]⟩ 2 (g.fieldContent f)

/-- The element that describes the grid. -/
def markup (g : Grid) : Markup :=
  .element ⟨"Grid", [.tight "Name" g.file, .tight "GridType" "Uniform"]⟩ 2
    (g.topology :: g.geometry :: g.fields.map g.fieldElement)

/-- The grid of a file at an observation. -/
def ofFile (file : Volume.File Binary64) (name : String) : Except Failure Grid := do
  let extents ← (file.extents name).mapError .missing
  match MeshSize.ofExtents? extents with
  | none => throw (.malformedExtents file.path name extents.length)
  | some size =>
      let components ← (file.tensorComponents name).mapError .missing
      return ⟨file.path, name, size, Field.ofComponents components⟩

end Grid

/-- One observation of an index. -/
structure Entry where
  time : Binary64
  grids : List Grid
  deriving DecidableEq

namespace Entry

/-- The element that describes an observation. -/
def markup (e : Entry) : Markup :=
  .element ⟨"Grid", [.tight "Name" "Grids", .tight "GridType" "Collection"]⟩ 2
    (.single ⟨"Time", [.tight "Value" e.time.timeStamp]⟩ :: e.grids.map Grid.markup)

/-- The entry of an observation: one grid for every file. -/
def ofFiles (files : List (Volume.File Binary64)) (o : Snapshot) : Except Failure Entry := do
  return ⟨o.value, ← files.mapM fun file => Grid.ofFile file o.name⟩

end Entry

/-- An index document. -/
structure Document where
  entries : List Entry
  deriving DecidableEq

namespace Document

/-- The lines before the outermost element. -/
def prolog : List (List Char) :=
  ["<?xml version=\"1.0\" ?>".toList, "<!DOCTYPE Xdmf SYSTEM \"Xdmf.dtd\">".toList]

/-- The document as a tree. -/
def markup (d : Document) : Markup :=
  .element ⟨"Xdmf", [.tight "Version" "2.0"]⟩ 0
    [.element ⟨"Domain", []⟩ 0
      [.element ⟨"Grid", [.tight "Name" "Evolution", .tight "GridType" "Collection",
        .tight "CollectionType" "Temporal"]⟩ 2 (d.entries.map Entry.markup)]]

/-- Lines as one text, with nothing behind the last one. -/
def joinLines : List (List Char) → List Char
  | [] => []
  | [line] => line
  | line :: rest => line ++ '\n' :: joinLines rest

/-- The text of the document. -/
def render (d : Document) : String := String.ofList (joinLines (prolog ++ d.markup.lines 0))

/-- The document for the given observations. -/
def ofFiles (files : List (Volume.File Binary64)) (chosen : List Snapshot) :
    Except Failure Document := do
  return ⟨← chosen.mapM (Entry.ofFiles files)⟩

end Document

/-- The text of the index for the given observations. -/
def render (files : List (Volume.File Binary64)) (chosen : List Snapshot) :
    Except Failure String :=
  (Document.ofFiles files chosen).map Document.render

/-- The record of what is indexed. -/
def reportIndexing (chosen all files : Nat) : Logged Unit :=
  Logged.say .info ("Indexing " ++ toString chosen ++ " of " ++ toString all ++
    " observations across " ++ toString files ++ " files")

/-- The text of the index of a run. -/
def generate (files : List (Volume.File Binary64)) (selection : Selection) :
    Logged (Except Failure String) := do
  match observations files with
  | .error e => return .error e
  | .ok all =>
      match ← selection.select all with
      | .error e => return .error e
      | .ok chosen =>
          reportIndexing chosen.length all.length files.length
          return render files chosen

/-- Writes an index beside its name: the extension is appended. -/
def write {m : Type → Type} [Monad m] [Files.Access m] (output document : String) :
    m (Logged (Except Failure String)) := do
  let path := output ++ ".xmf"
  match ← Files.writeText path document with
  | .error e => return pure (.error (.io path e))
  | .ok () => return do
      Logged.say .info ("Wrote " ++ path)
      return .ok path

/-- The volume files of a run: those whose names start with a stem, which may hold wildcards. -/
def discover (surroundings : Files.Surroundings) (stem : String) :
    Logged (Except Failure (List String)) := do
  match ← surroundings.expand (stem ++ "*.h5") with
  | .error e => return .error (.pattern e)
  | .ok [] => return .error (.noVolumeFiles stem)
  | .ok paths => return .ok paths

end Xdmf
end PostRun
