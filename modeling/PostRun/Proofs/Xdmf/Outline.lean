import PostRun.Proofs.Xdmf.Grids
import PostRun.Proofs.Xdmf.Written

/-!
# What a document says

A document is read without any knowledge of the files: `decode` takes the text of an index
and gives the entries that it lists, each with its time and its grids, and each grid with
the datasets that it points at.  A text that is not built as an index is has no reading.

## From the outside to the inside

There is one function for each kind of element, with a lemma on what it reads of the element
that is written for a grid (`Grid.reference?_pointer`, `Grid.fieldOutline?_fieldElement`,
`Grid.gridOutline?_markup`, `Entry.entryOutline?_markup`).  What has to be read is stated
apart from the markup, as an outline that is made of the path of the file, the name of the
observation, the size of the mesh and the fields (`Grid.outline`).

`render_decodes` puts these together: every character of a path or of a name is read back.
-/

namespace PostRun
namespace Xdmf

/-! ## Outlines -/

/-- A dataset as an index points at it. -/
structure Reference where
  dimensions : String
  target : String
  deriving DecidableEq

/-- A field as an index shows it. -/
inductive FieldOutline where
  | scalar (name : String) (item : Reference)
  | joined (name dimensions : String) (items : List Reference)
  deriving DecidableEq

/-- A grid as an index shows it. -/
structure GridOutline where
  name : String
  cells : String
  topology : Reference
  geometry : List Reference
  fields : List FieldOutline
  deriving DecidableEq

/-- An observation as an index shows it. -/
structure EntryOutline where
  time : String
  grids : List GridOutline
  deriving DecidableEq

/-! ## Reading outlines -/

/-- The value of an attribute of a tag, its escapes undone. -/
def Head.value? (h : Head) (key : String) : Option String :=
  (h.attributes.lookup key).bind fun v => (Text.unescape v).map String.ofList

/-- Whether a tag has the given name and the given attributes. -/
def Head.isA (h : Head) (name : String) (fixed : List (String × String)) : Bool :=
  h.name == name && fixed.all fun a => h.value? a.1 == some a.2

/-- The character that a node is. -/
def Node.char? : Node → Option Char
  | .char c => some c
  | .element _ _ => none

/-- The text of a line that stands between the tags of a reference, its indentation taken off and
its escapes undone. -/
def line? (content : List Node) : Option String :=
  (((content.mapM Node.char?).bind fun cs =>
    (cs.dropPrefix? ('\n' :: List.replicate 10 ' ')).bind fun rest =>
      rest.dropSuffix? ('\n' :: List.replicate 8 ' ')).bind Text.unescape).map String.ofList

/-- Reads the element that points at a dataset. -/
def reference? (e : Head × List Node) : Option Reference :=
  if e.1.isA "DataItem" [("Format", "HDF5")] then
    (e.1.value? "Dimensions").bind fun dimensions => (line? e.2).map fun line => ⟨dimensions, line⟩
  else none

/-- Reads the elements in the content of an element. -/
def contents? {α : Type} (item? : Head × List Node → Option α) (e : Head × List Node) :
    Option (List α) :=
  (elements? e.2).bind fun es => es.mapM item?

/-- Reads the element that joins components to a vector. -/
def joined? (name : String) (e : Head × List Node) : Option FieldOutline :=
  if e.1.isA "DataItem" [("ItemType", "Function"), ("Function", "JOIN($0,$1,$2)")] then
    (e.1.value? "Dimensions").bind fun dimensions =>
      (contents? reference? e).map fun items => .joined name dimensions items
  else none

/-- Reads the element of a field. -/
def fieldOutline? (e : Head × List Node) : Option FieldOutline :=
  (e.1.value? "Name").bind fun name =>
    if e.1.isA "Attribute" [("AttributeType", "Scalar"), ("Center", "Node")] then
      ((contents? reference? e).bind only?).map fun item => .scalar name item
    else if e.1.isA "Attribute" [("AttributeType", "Vector"), ("Center", "Node")] then
      (contents? (joined? name) e).bind only?
    else none

/-- Reads the element of the cells: their number and where they are. -/
def cells? (e : Head × List Node) : Option (String × Reference) :=
  if e.1.isA "Topology" [("TopologyType", "Hexahedron")] then
    (e.1.value? "NumberOfElements").bind fun cells =>
      ((contents? reference? e).bind only?).map fun item => (cells, item)
  else none

/-- Reads the element of the points. -/
def points? (e : Head × List Node) : Option (List Reference) :=
  if e.1.isA "Geometry" [("Type", "X_Y_Z")] then contents? reference? e else none

/-- Reads the element of a grid: cells, points and then fields. -/
def gridOutline? (e : Head × List Node) : Option GridOutline :=
  if e.1.isA "Grid" [("GridType", "Uniform")] then
    match elements? e.2 with
    | some (cells :: points :: fields) =>
        (e.1.value? "Name").bind fun name =>
          (cells? cells).bind fun topology =>
            (points? points).bind fun geometry =>
              (fields.mapM fieldOutline?).map fun fields =>
                ⟨name, topology.1, topology.2, geometry, fields⟩
    | _ => none
  else none

/-- Reads the element of a time. -/
def time? (e : Head × List Node) : Option String :=
  if e.1.isA "Time" [] && e.2.isEmpty then e.1.value? "Value" else none

/-- Reads the element of an observation: its time and then its grids. -/
def entryOutline? (e : Head × List Node) : Option EntryOutline :=
  if e.1.isA "Grid" [("Name", "Grids"), ("GridType", "Collection")] then
    match elements? e.2 with
    | some (first :: grids) =>
        (time? first).bind fun time =>
          (grids.mapM gridOutline?).map fun grids => ⟨time, grids⟩
    | _ => none
  else none

/-- Reads the element that holds all observations. -/
def evolution? (e : Head × List Node) : Option (List EntryOutline) :=
  if e.1.isA "Grid" [("Name", "Evolution"), ("GridType", "Collection"),
      ("CollectionType", "Temporal")] then contents? entryOutline? e
  else none

/-- Reads the element of the domain. -/
def domain? (e : Head × List Node) : Option (List EntryOutline) :=
  if e.1.isA "Domain" [] then (contents? evolution? e).bind only? else none

/-- The observations that the text of an index lists. -/
def decode (text : String) : Option (List EntryOutline) :=
  (root? text.toList).bind fun e =>
    if e.1.isA "Xdmf" [("Version", "2.0")] then (contents? domain? e).bind only? else none

/-! ## The outline of a grid -/

/-- The reference to a dataset of an observation in a file. -/
def Reference.to (path name dimensions dataset : String) : Reference :=
  ⟨dimensions, path ++ ":/element_data.vol/" ++ name ++ "/" ++ dataset⟩

/-- The outline of a field of an observation in a file. -/
def FieldOutline.ofField (path name : String) (points : Nat) : Field → FieldOutline
  | .scalar component => .scalar component (.to path name (" " ++ toString points) component)
  | .vector base => .joined base (" " ++ toString points ++ " 3")
      (["_x", "_y", "_z"].map fun axis => .to path name (" " ++ toString points) (base ++ axis))

/-- The outline of a grid. -/
def Grid.outline (g : Grid) : GridOutline where
  name := g.file
  cells := toString g.size.cells
  topology := .to g.file g.observation (toString g.size.cells ++ " 8") "connectivity"
  geometry := ["InertialCoordinates_x", "InertialCoordinates_y", "InertialCoordinates_z"].map
    (.to g.file g.observation (" " ++ toString g.size.points))
  fields := g.fields.map (.ofField g.file g.observation g.size.points)

/-- The outline of an observation. -/
def Entry.outline (e : Entry) : EntryOutline := ⟨e.time.timeStamp, e.grids.map Grid.outline⟩

/-! ## What is written is read -/

/-- An attribute of a written tag is read back. -/
@[simp] theorem Tag.value?_head (t : Tag) (key : String) :
    t.head.value? key = (t.attributes.find? fun a => key == a.name).map (·.value) := by
  rw [Head.value?, head]
  induction t.attributes with
  | nil => rfl
  | cons a as ih =>
    rw [List.map_cons, List.lookup_cons, List.find?_cons]
    cases key == a.name with
    | false => exact ih
    | true => simp [Text.unescape_escape]

@[simp] theorem Tag.name_head (t : Tag) : t.head.name = t.name := rfl

/-- Items that are read one by one are read as a list. -/
theorem mapM_filterMap {α : Type u} {β : Type v} {γ : Type w} {e : α → Option β}
    {item? : β → Option γ} {f : α → γ} {l : List α}
    (h : ∀ a ∈ l, (e a).bind item? = some (f a)) :
    (l.filterMap e).mapM item? = some (l.map f) := by
  induction l with
  | nil => rfl
  | cons a l ih =>
    obtain ⟨ha, hl⟩ := List.forall_mem_cons.1 h
    obtain ⟨b, hb, hitem⟩ := Option.bind_eq_some_iff.1 ha
    rw [List.filterMap_cons_some hb, List.mapM_cons, hitem, ih hl]
    rfl

/-- The elements in the content of an element are read if each of them is. -/
theorem contents?_element {α : Type u} {β : Type} {item? : Head × List Node → Option β}
    {mk : α → Markup} {f : α → β} {l : List α} {n step : Nat} (head : Head)
    (h : ∀ a ∈ l, ((mk a).element? (n + step)).bind item? = some (f a)) :
    contents? item?
        (head, .char '\n' :: Markup.nodesOfAll (n + step) (l.map mk) ++ Markup.blanks n) =
      some (l.map f) := by
  have helements : ∀ m ∈ l.map mk, ∃ e, m.element? (n + step) = some e := by
    intro m hm
    obtain ⟨a, ha, rfl⟩ := List.mem_map.1 hm
    obtain ⟨e, he, -⟩ := Option.bind_eq_some_iff.1 (h a ha)
    exact ⟨e, he⟩
  rw [contents?, Markup.elements?_content helements, Option.bind_some, List.filterMap_map]
  exact mapM_filterMap h

/-- The only element in the content of an element is read. -/
theorem contents?_singleton {β : Type} {item? : Head × List Node → Option β} {m : Markup} {b : β}
    {n step : Nat} (head : Head) (h : (m.element? (n + step)).bind item? = some b) :
    contents? item? (head, .char '\n' :: Markup.nodesOfAll (n + step) [m] ++ Markup.blanks n) =
      some [b] := by
  have hall : ∀ m' ∈ [m], ((id m').element? (n + step)).bind item? = some ((fun _ => b) m') := by
    simpa using h
  simpa using contents?_element head hall

/-- A line is read back. -/
theorem line?_text (line : String) :
    line? (.char '\n' :: Markup.nodesOfAll 10 [.text line] ++ Markup.blanks 8) = some line := by
  have hchars : (.char '\n' :: Markup.nodesOfAll 10 [.text line] ++ Markup.blanks 8 : List Node) =
      (('\n' :: List.replicate 10 ' ') ++
        (Text.escape line.toList ++ ('\n' :: List.replicate 8 ' '))).map Node.char := by
    simp [Markup.nodesOfAll, Markup.nodes, Markup.blanks]
  have hread : ∀ cs : List Char, (cs.map Node.char).mapM Node.char? = some cs := by
    intro cs
    simpa using mapM_filterMap (l := cs) (e := some ∘ Node.char) (f := id) (fun _ _ => rfl)
  have hprefix := List.dropPrefix?_append_of_beq
    (Text.escape line.toList ++ '\n' :: List.replicate 8 ' ')
    (beq_self_eq_true ('\n' :: List.replicate 10 ' '))
  have hsuffix : (Text.escape line.toList ++ '\n' :: List.replicate 8 ' ').dropSuffix?
      ('\n' :: List.replicate 8 ' ') = some (Text.escape line.toList) :=
    List.dropSuffix?_eq_some_iff.2 ⟨_, rfl, beq_self_eq_true _⟩
  rw [line?, hchars, hread, Option.bind_some, hprefix, Option.bind_some, hsuffix, Option.bind_some,
    Text.unescape_escape, Option.map_some, String.ofList_toList]

/-- What a reference points at is the path of the dataset. -/
theorem DatasetPath.text_eq (path name dataset : String) :
    (DatasetPath.mk path name dataset).text =
      path ++ ":/element_data.vol/" ++ name ++ "/" ++ dataset := by
  have hgroup : ":/element_data.vol/" = ":/" ++ Volume.groupName ++ "/" := by decide
  rw [text, hgroup]
  simp only [String.append_assoc]

namespace Grid

variable (g : Grid)

/-- The element that points at a dataset is read. -/
theorem reference?_pointer {attributes : List Attribute} {dimensions : String}
    (hdimensions : (Tag.head ⟨"DataItem", attributes⟩).value? "Dimensions" = some dimensions)
    (hformat : (Tag.head ⟨"DataItem", attributes⟩).value? "Format" = some "HDF5")
    (dataset : String) :
    ((g.pointer attributes dataset).element? 8).bind reference? =
      some (.to g.file g.observation dimensions dataset) := by
  have hline := line?_text (g.path dataset).text
  rw [path, DatasetPath.text_eq] at hline
  have hitem : Head.isA (Tag.head ⟨"DataItem", attributes⟩) "DataItem" [("Format", "HDF5")] := by
    simp only [Head.isA, List.all_cons, hformat]
    simp
  rw [pointer, Markup.element?, Option.bind_some, reference?, if_pos hitem, hdimensions,
    Option.bind_some, path, DatasetPath.text_eq, hline]
  rfl

theorem reference?_item (dataset : String) :
    ((g.item dataset).element? 8).bind reference? =
      some (.to g.file g.observation (" " ++ toString g.size.points) dataset) :=
  g.reference?_pointer (by simp [Attribute.tight]) (by simp [Attribute.tight]) dataset

/-- The elements that point at several datasets are read. -/
theorem contents?_items (head : Head) {step n : Nat} (hn : n + step = 8) (datasets : List String) :
    contents? reference?
      (head, .char '\n' :: Markup.nodesOfAll (n + step) (datasets.map g.item) ++ Markup.blanks n) =
      some (datasets.map (.to g.file g.observation (" " ++ toString g.size.points))) :=
  contents?_element head fun dataset _ => by rw [hn]; exact g.reference?_item dataset

/-- The tag of the element of a field. -/
def fieldTag (f : Field) : Tag :=
  ⟨"Attribute", [.tight "Name" f.name, .tight "AttributeType" (fieldType f),
    .tight "Center" "Node"]⟩

/-- The tag of the element that joins components. -/
def joinTag : Tag :=
  ⟨"DataItem", [.tight "Dimensions" (" " ++ toString g.size.points ++ " 3"),
    ⟨"ItemType", "Function", true⟩, ⟨"Function", "JOIN($0,$1,$2)", true⟩]⟩

/-- The element that joins components is read; its content is not indented. -/
theorem joined?_element (name base : String) :
    ((Markup.element g.joinTag 0 ((Field.vector base).components.map g.item)).element?
        (6 + 2)).bind (joined? name) =
      some (.joined name (" " ++ toString g.size.points ++ " 3")
        ((Field.vector base).components.map
          (.to g.file g.observation (" " ++ toString g.size.points)))) := by
  have htag : g.joinTag.head.isA "DataItem"
      [("ItemType", "Function"), ("Function", "JOIN($0,$1,$2)")] := by
    simp [Head.isA, joinTag, Attribute.tight]
  have hdimensions : g.joinTag.head.value? "Dimensions" =
      some (" " ++ toString g.size.points ++ " 3") := by
    simp [joinTag, Attribute.tight]
  rw [Markup.element?, Option.bind_some, joined?, if_pos htag, hdimensions, Option.bind_some,
    g.contents?_items _ rfl, Option.map_some]

/-- The element of a field is read. -/
theorem fieldOutline?_fieldElement (f : Field) :
    ((g.fieldElement f).element? 6).bind fieldOutline? =
      some (.ofField g.file g.observation g.size.points f) := by
  have hname : (fieldTag f).head.value? "Name" = some f.name := by simp [fieldTag, Attribute.tight]
  have helement : (g.fieldElement f).element? 6 = some ((fieldTag f).head,
      .char '\n' :: Markup.nodesOfAll (6 + 2) (g.fieldContent f) ++ Markup.blanks 6) := rfl
  rw [helement, Option.bind_some, fieldOutline?, hname, Option.bind_some]
  cases f with
  | scalar name =>
    have htag : (fieldTag (.scalar name)).head.isA "Attribute"
        [("AttributeType", "Scalar"), ("Center", "Node")] := by
      simp [Head.isA, fieldTag, fieldType, Attribute.tight]
    have hcontent := g.contents?_items (fieldTag (.scalar name)).head (rfl : 6 + 2 = 8) [name]
    rw [if_pos htag, fieldContent, ← List.map_singleton, hcontent]
    rfl
  | vector base =>
    have hscalar : ¬ (fieldTag (.vector base)).head.isA "Attribute"
        [("AttributeType", "Scalar"), ("Center", "Node")] := by
      simp [Head.isA, fieldTag, fieldType, Attribute.tight]
    have htag : (fieldTag (.vector base)).head.isA "Attribute"
        [("AttributeType", "Vector"), ("Center", "Node")] := by
      simp [Head.isA, fieldTag, fieldType, Attribute.tight]
    have hcontent : g.fieldContent (.vector base) =
        [.element g.joinTag 0 ((Field.vector base).components.map g.item)] := rfl
    rw [if_neg hscalar, if_pos htag, hcontent,
      contents?_singleton _ (g.joined?_element (Field.vector base).name base)]
    rfl

/-- The tag of the element of the cells. -/
def topologyTag : Tag :=
  ⟨"Topology", [.tight "TopologyType" "Hexahedron",
    .tight "NumberOfElements" (toString g.size.cells)]⟩

/-- The element of the cells is read. -/
theorem cells?_topology :
    (g.topology.element? 6).bind cells? =
      some (toString g.size.cells,
        .to g.file g.observation (toString g.size.cells ++ " 8") "connectivity") := by
  have hitem : ((g.pointer [.tight "Dimensions" (toString g.size.cells ++ " 8"),
      .tight "NumberType" "Int", .tight "Format" "HDF5"] Volume.connectivityName).element?
        (6 + 2)).bind reference? =
      some (.to g.file g.observation (toString g.size.cells ++ " 8") "connectivity") :=
    g.reference?_pointer (by simp [Attribute.tight]) (by simp [Attribute.tight]) _
  have htag : g.topologyTag.head.isA "Topology" [("TopologyType", "Hexahedron")] := by
    simp [Head.isA, topologyTag, Attribute.tight]
  have hcells : g.topologyTag.head.value? "NumberOfElements" = some (toString g.size.cells) := by
    simp [topologyTag, Attribute.tight]
  rw [topology, ← topologyTag, Markup.element?, Option.bind_some, cells?, if_pos htag, hcells,
    Option.bind_some, contents?_singleton _ hitem]
  rfl

/-- The element of the points is read. -/
theorem points?_geometry :
    (g.geometry.element? 6).bind points? =
      some (["InertialCoordinates_x", "InertialCoordinates_y", "InertialCoordinates_z"].map
        (.to g.file g.observation (" " ++ toString g.size.points))) := by
  have htag : (Tag.head ⟨"Geometry", [.tight "Type" "X_Y_Z"]⟩).isA "Geometry"
      [("Type", "X_Y_Z")] := by
    simp [Head.isA, Attribute.tight]
  rw [geometry, Markup.element?, Option.bind_some, points?, if_pos htag, g.contents?_items _ rfl]
  rfl

/-- The tag of the element of a grid. -/
def tag : Tag := ⟨"Grid", [.tight "Name" g.file, .tight "GridType" "Uniform"]⟩

/-- The element of a grid is read. -/
theorem gridOutline?_markup : (g.markup.element? 4).bind gridOutline? = some g.outline := by
  have htag : g.tag.head.isA "Grid" [("GridType", "Uniform")] := by
    simp [Head.isA, tag, Attribute.tight]
  have hname : g.tag.head.value? "Name" = some g.file := by simp [tag, Attribute.tight]
  obtain ⟨cells, hcells, hcellsOutline⟩ := Option.bind_eq_some_iff.1 g.cells?_topology
  obtain ⟨points, hpoints, hpointsOutline⟩ := Option.bind_eq_some_iff.1 g.points?_geometry
  have hfields : ((g.fields.map g.fieldElement).filterMap (Markup.element? 6)).mapM fieldOutline? =
      some (g.fields.map (.ofField g.file g.observation g.size.points)) := by
    rw [List.filterMap_map]
    exact mapM_filterMap fun f _ => g.fieldOutline?_fieldElement f
  have helements : ∀ m ∈ g.topology :: g.geometry :: g.fields.map g.fieldElement,
      ∃ e, m.element? (4 + 2) = some e := by
    simp only [List.forall_mem_cons, List.forall_mem_map]
    exact ⟨⟨cells, hcells⟩, ⟨points, hpoints⟩, fun f _ => ⟨_, rfl⟩⟩
  have hcontent := Markup.elements?_content helements
  rw [List.filterMap_cons_some hcells, List.filterMap_cons_some hpoints] at hcontent
  rw [markup, ← tag, Markup.element?, Option.bind_some, gridOutline?, if_pos htag, hcontent]
  simp only [hname, hcellsOutline, hpointsOutline, hfields, Option.bind_some, Option.map_some]
  rfl

end Grid

/-- The tag of the element of a time. -/
def Entry.timeTag (e : Entry) : Tag := ⟨"Time", [.tight "Value" e.time.timeStamp]⟩

/-- The element of an observation is read. -/
theorem Entry.entryOutline?_markup (e : Entry) :
    (e.markup.element? 2).bind entryOutline? = some e.outline := by
  have htag : (Tag.head ⟨"Grid", [.tight "Name" "Grids",
      .tight "GridType" "Collection"]⟩).isA "Grid"
        [("Name", "Grids"), ("GridType", "Collection")] := by
    decide
  have hfirst : (Markup.single e.timeTag).element? (2 + 2) = some (e.timeTag.head, []) := rfl
  have htime : time? (e.timeTag.head, []) = some e.time.timeStamp := by
    simp [time?, Head.isA, timeTag, Attribute.tight]
  have hgrids : ((e.grids.map Grid.markup).filterMap (Markup.element? 4)).mapM gridOutline? =
      some (e.grids.map Grid.outline) := by
    rw [List.filterMap_map]
    exact mapM_filterMap fun g _ => g.gridOutline?_markup
  have helements : ∀ m ∈ .single e.timeTag :: e.grids.map Grid.markup,
      ∃ e, m.element? (2 + 2) = some e := by
    simp only [List.forall_mem_cons, List.forall_mem_map]
    exact ⟨⟨_, hfirst⟩, fun g _ => ⟨_, rfl⟩⟩
  have hcontent := Markup.elements?_content helements
  rw [List.filterMap_cons_some hfirst] at hcontent
  rw [markup, ← timeTag, Markup.element?, Option.bind_some, entryOutline?, if_pos htag, hcontent]
  simp only [htime, hgrids, Option.bind_some, Option.map_some]
  rfl

/-! ## Documents -/

theorem Grid.isReadable_fieldElement (g : Grid) (f : Field) : (g.fieldElement f).isReadable := by
  cases f <;>
    simp [fieldElement, fieldContent, item, pointer, Field.components, Axis.all,
      Markup.isReadable, Markup.areReadable, Tag.isReadable, Attribute.tight, isName, isNameChar]

theorem Grid.isReadable_markup (g : Grid) : g.markup.isReadable := by
  have hfields : Markup.areReadable (g.fields.map g.fieldElement) :=
    Markup.areReadable_iff.2 (List.forall_mem_map.2 fun f _ => g.isReadable_fieldElement f)
  simp [markup, hfields, topology, geometry, item, pointer, Volume.coordinateNames,
    Markup.isReadable, Markup.areReadable, Tag.isReadable, Attribute.tight, isName, isNameChar]

theorem Entry.isReadable_markup (e : Entry) : e.markup.isReadable := by
  have hgrids : Markup.areReadable (e.grids.map Grid.markup) :=
    Markup.areReadable_iff.2 (List.forall_mem_map.2 fun g _ => g.isReadable_markup)
  simp [markup, hgrids, Markup.isReadable, Markup.areReadable, Tag.isReadable, Attribute.tight,
    isName, isNameChar]

/-- All names in a document are names. -/
theorem Document.isReadable_markup (d : Document) : d.markup.isReadable := by
  have hentries : Markup.areReadable (d.entries.map Entry.markup) :=
    Markup.areReadable_iff.2 (List.forall_mem_map.2 fun e _ => e.isReadable_markup)
  simp [markup, hentries, Markup.isReadable, Markup.areReadable, Tag.isReadable, Attribute.tight,
    isName, isNameChar]

/-- The tag of the element that holds all observations. -/
def evolutionTag : Tag :=
  ⟨"Grid", [.tight "Name" "Evolution", .tight "GridType" "Collection",
    .tight "CollectionType" "Temporal"]⟩

/-- The element that holds all observations is read. -/
theorem Document.evolution?_markup (d : Document) :
    ((Markup.element evolutionTag 2 (d.entries.map Entry.markup)).element? (0 + 0)).bind
      evolution? = some (d.entries.map Entry.outline) := by
  have htag : evolutionTag.head.isA "Grid" [("Name", "Evolution"), ("GridType", "Collection"),
      ("CollectionType", "Temporal")] := by decide
  rw [Markup.element?, Option.bind_some, evolution?, if_pos htag]
  exact contents?_element _ fun e _ => e.entryOutline?_markup

/-- **The text of a document** is read as its outline. -/
theorem Document.decode_render (d : Document) :
    decode d.render = some (d.entries.map Entry.outline) := by
  have hdomain : ((Markup.element ⟨"Domain", []⟩ 0
      [.element evolutionTag 2 (d.entries.map Entry.markup)]).element? (0 + 0)).bind domain? =
      some (d.entries.map Entry.outline) := by
    have htag : (Tag.head ⟨"Domain", []⟩).isA "Domain" [] := by decide
    rw [Markup.element?, Option.bind_some, domain?, if_pos htag,
      contents?_singleton _ d.evolution?_markup]
    rfl
  have htag : (Tag.head ⟨"Xdmf", [.tight "Version" "2.0"]⟩).isA "Xdmf" [("Version", "2.0")] := by
    decide
  rw [decode, render, String.toList_ofList, markup, Markup.root?_joinLines d.isReadable_markup,
    ← evolutionTag, Markup.element?, Option.bind_some, if_pos htag,
    contents?_singleton _ hdomain]
  rfl

/-- **A rendered document decodes to what was rendered.** -/
theorem render_decodes {files : List (Volume.File Binary64)} {chosen : List Snapshot}
    {text : String} (h : render files chosen = .ok text) :
    ∃ entries, decode text = some entries ∧
      List.Forall₂ (fun (o : Snapshot) (e : EntryOutline) => e.time = o.value.timeStamp ∧
        List.Forall₂ (fun (file : Volume.File Binary64) (g : GridOutline) =>
          ∃ extents size components, file.extents o.name = .ok extents ∧
            MeshSize.ofExtents? extents = some size ∧
            file.tensorComponents o.name = .ok components ∧
            g = Grid.outline ⟨file.path, o.name, size, Field.ofComponents components⟩)
          files e.grids) chosen entries := by
  obtain ⟨d, hd, rfl⟩ := map_eq_ok_iff.1 h
  refine ⟨_, d.decode_render, List.forall₂_map_right_iff.2 ?_⟩
  refine (Document.ofFiles_eq_ok_iff.1 hd).imp fun o e ⟨htime, hgrids⟩ => ⟨?_, ?_⟩
  · rw [Entry.outline, htime]
  · refine List.forall₂_map_right_iff.2 (hgrids.imp fun file g hg => ?_)
    obtain ⟨extents, size, components, hextents, hsize, hcomponents, rfl⟩ :=
      Grid.ofFile_eq_ok_iff.1 hg
    exact ⟨extents, size, components, hextents, hsize, hcomponents, rfl⟩

/-- An observation of one element with a scalar and a vector, all at zero. -/
def markedData : Volume.ObservationData Binary64 :=
  (Volume.ObservationData.ofValue ⟨0x3FF0000000000000⟩).addElement "E" ⟨2, 1, 1⟩
    ((Volume.coordinateNames ++ ["p<0", "v_x", "v_y", "v_z"]).map (·, [.zero, .zero]))

/-- A file whose path and whose observation have names full of markup. -/
def markedFile : Volume.File Binary64 :=
  (Volume.File.ofPath "R&D/<run>\n0.h5").insert "t=\"0\"" markedData

/-- The document of such a file reads as it should. -/
theorem render_decodes_markedFile :
    ∃ text grid, render [markedFile] [⟨"t=\"0\"", ⟨0x3FF0000000000000⟩⟩] = .ok text ∧
      decode text = some [⟨"1.00000000000000e+00", [grid]⟩] ∧
      grid.name = "R&D/<run>\n0.h5" ∧
      grid.topology.target = "R&D/<run>\n0.h5:/element_data.vol/t=\"0\"/connectivity" := by
  have hdata : markedFile.contents.find? "t=\"0\"" = some markedData := rfl
  have hgrid : ∃ g, Grid.ofFile markedFile "t=\"0\"" = .ok g := by
    rw [Grid.ofFile_eq hdata]
    exact ⟨_, rfl⟩
  have hdoc : ∃ doc, Document.ofFiles [markedFile] [⟨"t=\"0\"", ⟨0x3FF0000000000000⟩⟩] = .ok doc :=
    Document.exists_ofFiles_eq_ok_iff.2 (by simpa using hgrid)
  obtain ⟨doc, hdoc⟩ := hdoc
  have hrender : render [markedFile] [⟨"t=\"0\"", ⟨0x3FF0000000000000⟩⟩] = .ok doc.render :=
    map_eq_ok_iff.2 ⟨doc, hdoc, rfl⟩
  obtain ⟨entries, hentries, hall⟩ := render_decodes hrender
  obtain ⟨e, others, ⟨htime, hgrids⟩, hnil, rfl⟩ := List.forall₂_cons_left_iff.1 hall
  obtain ⟨grid, more, ⟨extents, size, components, -, -, -, hgrid⟩, hnil', hcons⟩ :=
    List.forall₂_cons_left_iff.1 hgrids
  rw [List.forall₂_nil_left_iff] at hnil hnil'
  have hstamp : Binary64.timeStamp ⟨0x3FF0000000000000⟩ = "1.00000000000000e+00" := by decide
  obtain ⟨time, grids⟩ := e
  cases htime.trans hstamp
  subst hnil hnil' hcons hgrid
  exact ⟨_, _, hrender, hentries, rfl, rfl⟩

end Xdmf
end PostRun
