import Mathlib.Data.List.Induction
import PostRun.Volume.File

/-!
# Observations made of elements

Most observations come into being in one way: elements are appended to an empty observation,
one after another.  Nothing is ever taken out again, so every dataset of such an observation
is a matter of the list of its elements, and this file says which one.

* `extents_ofElements`, `gridNames_ofElements`: the bookkeeping datasets list what belongs to
  the elements, in their order.
* `pointCount_ofElements`: the points are those of the elements.
* `getD_find?_ofElements`: a component is what the elements bring to it, back to back.

## Which elements fit together

Nothing keeps a caller from passing other components with every element, or one component
twice.  Then the datasets are no longer aligned.  `ElementData.Carries` says what is asked of
the caller: each of some distinct components once, with a value for every point.
-/

namespace PostRun
namespace Volume

variable {α : Type u}

/-! ## Elements -/

/-- An element as it is handed over: its name, its extents, and its components with their values. -/
structure ElementData (α : Type u) where
  name : String
  extents : Extents
  components : List (String × List α)

namespace ElementData

/-- What an element brings to a component: all values that are listed under its name. -/
def values (e : ElementData α) (component : String) : List α :=
  (e.components.filter fun c => c.1 == component).flatMap (·.2)

/-- An element has a value at each of its points for each of the given components, and no other
component. -/
structure Carries (names : List String) (e : ElementData α) : Prop where
  nodup : (e.components.map (·.1)).Nodup
  mem_iff : ∀ component, component ∈ e.components.map (·.1) ↔ component ∈ names
  length_eq : ∀ c ∈ e.components, c.2.length = e.extents.points

/-- A component that is listed once has the values that are listed with it. -/
theorem flatMap_filter_of_mem {cs : List (String × List α)} (h : (cs.map (·.1)).Nodup)
    {c : String × List α} (hc : c ∈ cs) : (cs.filter fun d => d.1 == c.1).flatMap (·.2) = c.2 := by
  induction cs with
  | nil => cases hc
  | cons d cs ih =>
    have hfirst : d.1 ∉ cs.map (·.1) := (List.nodup_cons.1 h).1
    rcases List.mem_cons.1 hc with rfl | hc
    · have hnone : cs.filter (fun d => d.1 == c.1) = [] := by
        refine List.filter_eq_nil_iff.2 fun d hd heq => hfirst ?_
        rw [← eq_of_beq heq]
        exact List.mem_map_of_mem hd
      simp [hnone]
    · have hne : d.1 ≠ c.1 := fun heq => hfirst (heq ▸ List.mem_map_of_mem hc)
      rw [List.filter_cons_of_neg (by simpa using hne)]
      exact ih (List.nodup_cons.1 h).2 hc

theorem values_eq_of_mem {e : ElementData α} (h : (e.components.map (·.1)).Nodup)
    {c : String × List α} (hc : c ∈ e.components) : e.values c.1 = c.2 :=
  flatMap_filter_of_mem h hc

/-- An element that lists the components in any order. -/
theorem Carries.of_perm {names : List String} {e : ElementData α} (hnames : names.Nodup)
    (hperm : (e.components.map (·.1)).Perm names)
    (hlength : ∀ c ∈ e.components, c.2.length = e.extents.points) : e.Carries names :=
  ⟨hperm.nodup_iff.2 hnames, fun _ => hperm.mem_iff, hlength⟩

/-- An element brings one value for each point. -/
theorem Carries.length_values {names : List String} {e : ElementData α} (h : e.Carries names)
    {component : String} (hcomponent : component ∈ names) :
    (e.values component).length = e.extents.points := by
  obtain ⟨c, hc, rfl⟩ := List.mem_map.1 ((h.mem_iff component).2 hcomponent)
  rw [values_eq_of_mem h.nodup hc]
  exact h.length_eq c hc

end ElementData

theorem total_replicate (n count : Nat) : total (List.replicate n count) = n * count := by
  induction n with
  | zero => simp
  | succ n ih => rw [List.replicate_succ, total_cons, ih, Nat.succ_mul, Nat.add_comm]

namespace ObservationData

/-! ## Appending one element -/

/-- Appends an element. -/
def add (d : ObservationData α) (e : ElementData α) : ObservationData α :=
  d.addElement e.name e.extents e.components

/-- The cells of an element are numbered from the number of points that are there. -/
theorem connectivity_add (d : ObservationData α) (e : ElementData α) :
    (d.add e).connectivity = d.connectivity ++ e.extents.connectivity d.pointCount := rfl

/-- A component gets what an element brings to it behind what it holds. -/
theorem getD_find?_foldl_extendComponent (m : NameMap (List α)) (cs : List (String × List α))
    (component : String) :
    ((cs.foldl extendComponent m).find? component).getD [] =
      (m.find? component).getD [] ++ (cs.filter fun c => c.1 == component).flatMap (·.2) := by
  induction cs generalizing m with
  | nil => simp
  | cons c cs ih =>
    rw [List.foldl_cons, ih, extendComponent, NameMap.find?_alter]
    by_cases h : component = c.1
    · subst h
      simp
    · rw [if_neg h, List.filter_cons_of_neg (by simpa using Ne.symm h)]

/-- The components of an element are added to those that are there. -/
theorem isSome_find?_foldl_extendComponent (m : NameMap (List α)) (cs : List (String × List α))
    (component : String) :
    ((cs.foldl extendComponent m).find? component).isSome ↔
      (m.find? component).isSome ∨ component ∈ cs.map (·.1) := by
  induction cs generalizing m with
  | nil => simp
  | cons c cs ih =>
    rw [List.foldl_cons, ih, extendComponent, NameMap.find?_alter, List.map_cons, List.mem_cons]
    by_cases h : component = c.1 <;> simp [h]

/-! ## Appending all elements -/

/-- The observation of some elements. -/
def ofElements (value : α) (elements : List (ElementData α)) : ObservationData α :=
  elements.foldl add (ofValue value)

variable (value : α) (elements : List (ElementData α))

@[simp] theorem ofElements_nil : ofElements value ([] : List (ElementData α)) = ofValue value := rfl

@[simp] theorem ofElements_append_singleton (e : ElementData α) :
    ofElements value (elements ++ [e]) = (ofElements value elements).add e := by
  simp [ofElements]

/-- Elements do not change the value of an observation. -/
theorem value_ofElements : (ofElements value elements).value = value := by
  induction elements using List.reverseRecOn with
  | nil => rfl
  | append_singleton elements e ih => simpa [add] using ih

/-- The extents are those of the elements. -/
theorem extents_ofElements :
    (ofElements value elements).extents = (elements.map (·.extents)).flatMap Extents.toList := by
  induction elements using List.reverseRecOn with
  | nil => rfl
  | append_singleton elements e ih => simp [add, ih]

/-- The element names are those of the elements. -/
theorem gridNames_ofElements :
    (ofElements value elements).gridNames = elements.map (·.name) := by
  induction elements using List.reverseRecOn with
  | nil => rfl
  | append_singleton elements e ih => simp [add, ih]

/-- The points are those of the elements. -/
theorem pointCount_ofElements :
    (ofElements value elements).pointCount = total (elements.map (·.extents.points)) := by
  rw [pointCount, extents_ofElements, triples_flatMap_toList]
  simp [Function.comp_def]

/-- **A component is what the elements bring to it**, back to back. -/
theorem getD_find?_ofElements (component : String) :
    ((ofElements value elements).components.find? component).getD [] =
      elements.flatMap (·.values component) := by
  induction elements using List.reverseRecOn with
  | nil => rfl
  | append_singleton elements e ih =>
    rw [ofElements_append_singleton, add, addElement, getD_find?_foldl_extendComponent, ih,
      List.flatMap_append, List.flatMap_singleton, ElementData.values]

/-- The components are those of the elements. -/
theorem isSome_find?_ofElements (component : String) :
    ((ofElements value elements).components.find? component).isSome ↔
      ∃ e ∈ elements, component ∈ e.components.map (·.1) := by
  induction elements using List.reverseRecOn with
  | nil => simp [ofValue]
  | append_singleton elements e ih =>
    rw [ofElements_append_singleton, add, addElement, isSome_find?_foldl_extendComponent, ih]
    simp [or_and_right, exists_or]

/-- A component of elements that fit together. -/
theorem find?_ofElements {value : α} {elements : List (ElementData α)} {names : List String}
    (hne : elements ≠ []) (hcarries : ∀ e ∈ elements, e.Carries names) {component : String}
    (hcomponent : component ∈ names) :
    (ofElements value elements).components.find? component =
      some (elements.flatMap (·.values component)) := by
  obtain ⟨e, he⟩ := List.exists_mem_of_ne_nil elements hne
  obtain ⟨values, hvalues⟩ := Option.isSome_iff_exists.1 ((isSome_find?_ofElements value elements
    component).2 ⟨e, he, ((hcarries e he).mem_iff component).2 hcomponent⟩)
  have hconcat := getD_find?_ofElements value elements component
  rw [hvalues, Option.getD_some] at hconcat
  rw [hvalues, hconcat]

/-- A component of elements that fit together has a value for every point. -/
theorem length_flatMap_values {elements : List (ElementData α)} {names : List String}
    (hcarries : ∀ e ∈ elements, e.Carries names) {component : String}
    (hcomponent : component ∈ names) :
    (elements.flatMap (·.values component)).length = total (elements.map (·.extents.points)) := by
  induction elements with
  | nil => rfl
  | cons e elements ih =>
    obtain ⟨he, helements⟩ := List.forall_mem_cons.1 hcarries
    rw [List.flatMap_cons, List.length_append, he.length_values hcomponent, ih helements,
      List.map_cons, total_cons]

/-- An observation was made of at least one element, and all elements bring the same components, the
coordinates among them. -/
def IsAssembled (d : ObservationData α) : Prop :=
  ∃ (value : α) (elements : List (ElementData α)) (names : List String),
    elements ≠ [] ∧ (∀ c ∈ coordinateNames, c ∈ names) ∧ (∀ e ∈ elements, e.Carries names) ∧
      d = ofElements value elements

/-- The coordinates are there. -/
theorem IsAssembled.exists_find?_coordinate {d : ObservationData α} (h : d.IsAssembled)
    {component : String} (hcomponent : component ∈ coordinateNames) :
    ∃ values, d.components.find? component = some values := by
  obtain ⟨value, elements, names, hne, hcoordinates, hcarries, rfl⟩ := h
  exact ⟨_, find?_ofElements hne hcarries (hcoordinates component hcomponent)⟩

/-- Every component has a value for every point. -/
theorem IsAssembled.length_component {d : ObservationData α} (h : d.IsAssembled)
    {component : String} {values : List α} (hvalues : d.components.find? component = some values) :
    values.length = d.pointCount := by
  obtain ⟨value, elements, names, hne, -, hcarries, rfl⟩ := h
  obtain ⟨e, he, hcomponent⟩ := (isSome_find?_ofElements value elements component).1
    (Option.isSome_iff_exists.2 ⟨values, hvalues⟩)
  have hnames : component ∈ names := ((hcarries e he).mem_iff component).1 hcomponent
  rw [find?_ofElements hne hcarries hnames, Option.some.injEq] at hvalues
  rw [← hvalues, length_flatMap_values hcarries hnames, pointCount_ofElements]

end ObservationData

/-! ## Observations in a file -/

namespace File

variable {file : File α} {name : String} {d : ObservationData α}

/-- What is listed is there. -/
theorem exists_find?_of_mem (h : name ∈ file.observationNames) :
    ∃ d, file.contents.find? name = some d :=
  Option.isSome_iff_exists.1 ((file.contents.isSome_find? name).2 h)

theorem observation_eq_ok (h : file.contents.find? name = some d) :
    file.observation name = .ok d := by
  rw [observation, h]

theorem extents_eq_ok (h : file.contents.find? name = some d) :
    file.extents name = .ok d.extents := by
  rw [extents, observation_eq_ok h]
  rfl

/-- A file that answers for the extents of an observation holds it. -/
theorem exists_find?_of_extents {extents : List Nat} (h : file.extents name = .ok extents) :
    ∃ d, file.contents.find? name = some d := by
  rw [File.extents, observation] at h
  cases hheld : file.contents.find? name with
  | none =>
    rw [hheld] at h
    cases h
  | some d => exact ⟨d, rfl⟩

/-- The element names are read back if there is no colon in any of them. -/
theorem gridNames_eq_ok (h : file.contents.find? name = some d)
    (hnames : ∀ n ∈ d.gridNames, nameEnd ∉ n.toList) : file.gridNames name = .ok d.gridNames := by
  rw [gridNames, rawGridNames, observation_eq_ok h]
  simp only [Except.map, splitGridNames_joinGridNames hnames]

theorem tensorComponent_eq_ok (h : file.contents.find? name = some d) {component : String}
    {values : List α} (hvalues : d.components.find? component = some values) :
    file.tensorComponent name component = .ok values := by
  rw [tensorComponent, observation_eq_ok h]
  simp only [hvalues]

theorem find?_contents_insert (f : File α) (name : String) (d : ObservationData α) :
    (f.insert name d).contents.find? name = some d := by
  rw [insert, NameMap.find?_insert, if_pos rfl]

/-- What is stored under other names does not touch an observation. -/
theorem find?_contents_foldl_insert (f : File α) {others : List (String × ObservationData α)}
    (hothers : ∀ o ∈ others, o.1 ≠ name) :
    (others.foldl (fun f o => f.insert o.1 o.2) f).contents.find? name = f.contents.find? name := by
  induction others generalizing f with
  | nil => rfl
  | cons o others ih =>
    obtain ⟨ho, hrest⟩ := List.forall_mem_cons.1 hothers
    rw [List.foldl_cons, ih (f.insert o.1 o.2) hrest, insert, NameMap.find?_insert,
      if_neg (Ne.symm ho)]

end File
end Volume
end PostRun
