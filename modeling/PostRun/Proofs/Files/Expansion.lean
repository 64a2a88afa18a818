import Mathlib.Data.List.Nodup
import PostRun.Files.Discovery
import PostRun.Proofs.Text.Pieces

/-!
# What a path pattern stands for

The search goes through the components of a pattern and keeps all directories found so far.  What
it is meant to find is said of one path at a time: names stand for the components, one for each, and
every name can be judged by the directories before it (`Surroundings.ReplacesAll`).

## Breadth and depth

Between the two stands the list of all ways to replace the components (`Surroundings.selections`).
It goes down to the end of one path before it tries the next name.  Both orders give the same list of
paths, since the paths found behind several directories are those behind the first one, then those
behind the second one, and so on (`Surroundings.expandFrom_value`).  On the selections the claim is an
induction on the components (`Surroundings.mem_selections`).

## No path is found twice

A name is listed once, so that no selection is made twice.  Two selections could still be spelled the
same.  They are not, because neither a component nor a name holds a slash: whoever cuts the path at
its slashes gets the names back (`Tree.components_intercalate`, `Surroundings.Lawful.nodup_paths`).
-/

namespace PostRun
namespace Files

/-! ## Paths and their components -/

/-- A path is its components with slashes between them. -/
theorem Tree.intercalate_components (path : String) :
    "/".intercalate (components path) = path := by
  refine String.toList_injective ?_
  have hlists : (components path).map String.toList = Text.pieces '/' path.toList := by
    simp [components, Function.comp_def]
  rw [String.toList_intercalate, hlists, Text.pieces_eq_splitOn]
  exact List.intercalate_splitOn '/'

theorem Tree.slash_not_mem_of_mem_components {path name : String} (h : name ∈ components path) :
    '/' ∉ name.toList := by
  obtain ⟨piece, hpiece, rfl⟩ := List.mem_map.1 h
  rw [String.toList_ofList]
  exact Text.not_mem_of_mem_pieces hpiece

/-- Names without slashes are the components of the path that they make. -/
theorem Tree.components_intercalate {names : List String} (hne : names ≠ [])
    (h : ∀ name ∈ names, '/' ∉ name.toList) : components ("/".intercalate names) = names := by
  have hpieces : Text.pieces '/' ("/".intercalate names).toList = names.map String.toList := by
    rw [String.toList_intercalate, Text.pieces_eq_splitOn]
    exact List.splitOn_intercalate '/' (List.forall_mem_map.2 h) (by simpa using hne)
  rw [components, hpieces, List.map_map]
  simp [Function.comp_def]

namespace Surroundings

variable (s : Surroundings)

/-! ## The names for one component -/

/-- A component that holds a wildcard is refused. -/
def Refuses (component : String) (cause : GlobError) : Prop :=
  Glob.isPattern component ∧ Glob.parse component = .error cause

/-- A directory can be listed and holds a name. -/
def Lists (directory name : String) : Prop :=
  ∃ names, s.names directory = .ok names ∧ name ∈ names

/-- A name stands for a component behind some directories.  A component without a wildcard stands
for itself; one with a wildcard for a name that is listed there and matched by it, and that does not
begin with a dot unless the component does.  With the name the path leads to a directory, or to
something else if the component is the last one; this is not asked of an empty component, which
only adds a slash to the path. -/
structure Replaces (directory component : String) (isLast : Bool) (name : String) : Prop where
  kept : ¬ Glob.isPattern component → name = component
  matched : Glob.isPattern component → s.Lists (listedAs directory) name ∧
    (∃ glob, Glob.parse component = .ok glob ∧ glob.accepts name) ∧
    (isDotted name → isDotted component)
  kind : component ≠ "" →
    s.kind? (directory ++ name) = some (if isLast then .file else .directory)

/-- The names in a directory, none if it cannot be listed. -/
def listing (directory : String) : List String :=
  match s.names (listedAs directory) with
  | .ok names => names
  | .error _ => []

/-- The names that stand for a component, before it is asked what they lead to. -/
def candidates (component directory : String) : List String :=
  if Glob.isPattern component then
    match Glob.parse component with
    | .error _ => []
    | .ok glob => (s.listing directory).filter (stands component glob)
  else [component]

/-- The names that stand for a component behind some directories. -/
def choices (component : String) (isLast : Bool) (directory : String) : List String :=
  (s.candidates component directory).filter fun name =>
    component = "" || s.isKind (directory ++ name) isLast

theorem isKind_iff (path : String) (isLast : Bool) :
    s.isKind path isLast ↔ s.kind? path = some (if isLast then .file else .directory) := by
  rw [isKind]
  cases isLast <;> rcases s.kind? path with _ | ⟨_⟩ | ⟨_⟩ <;> decide

theorem namesIn_value (directory : String) : (s.namesIn directory).value = s.listing directory := by
  rw [namesIn, listing]
  cases s.names (listedAs directory) <;> rfl

theorem mem_listing {directory name : String} :
    name ∈ s.listing directory ↔ s.Lists (listedAs directory) name := by
  rw [listing, Lists]
  cases s.names (listedAs directory) <;> simp

theorem stands_iff {component name : String} {glob : Glob} :
    stands component glob name ↔ (isDotted name → isDotted component) ∧ glob.accepts name := by
  cases hname : isDotted name <;> simp [stands, hname]

/-- The candidates for a component that holds a wildcard. -/
theorem mem_candidates {component directory name : String} (h : Glob.isPattern component) :
    name ∈ s.candidates component directory ↔ s.Lists (listedAs directory) name ∧
      (∃ glob, Glob.parse component = .ok glob ∧ glob.accepts name) ∧
      (isDotted name → isDotted component) := by
  rw [candidates, if_pos h]
  cases hparse : Glob.parse component with
  | error e => simp
  | ok glob => simp only [List.mem_filter, mem_listing, stands_iff, Except.ok.injEq,
      exists_eq_left', and_comm]

/-- **The choices for a component** are the names that stand for it. -/
theorem mem_choices {component directory name : String} {isLast : Bool} :
    name ∈ s.choices component isLast directory ↔ s.Replaces directory component isLast name := by
  have hkind : (component = "" || s.isKind (directory ++ name) isLast) ↔ (component ≠ "" →
      s.kind? (directory ++ name) = some (if isLast then .file else .directory)) := by
    rw [Bool.or_eq_true, isKind_iff, decide_eq_true_iff, or_iff_not_imp_left]
  rw [choices, List.mem_filter, hkind]
  by_cases hpattern : Glob.isPattern component
  · rw [mem_candidates s hpattern]
    exact ⟨fun h => ⟨fun hnot => absurd hpattern hnot, fun _ => h.1, h.2⟩,
      fun h => ⟨h.matched hpattern, h.kind⟩⟩
  · rw [candidates, if_neg hpattern, List.mem_singleton]
    exact ⟨fun h => ⟨fun _ => h.1, fun hyes => absurd hyes hpattern, h.2⟩,
      fun h => ⟨h.kept hpattern, h.kind⟩⟩

/-! ## One component -/

/-- The names that are kept, as the paths that they make. -/
theorem filterMap_extend (isLast : Bool) (directory : String) (names : List String) :
    names.filterMap (s.extend isLast directory) =
      (names.filter fun name => s.isKind (directory ++ name) isLast).map
        fun name => spell (directory ++ name) isLast := by
  induction names with
  | nil => rfl
  | cons name names ih =>
    by_cases hkind : s.isKind (directory ++ name) isLast
    · simp [extend, hkind, ih]
    · simp [extend, hkind, ih]

theorem not_isPattern_empty : ¬ Glob.isPattern "" := by decide

/-- A component is replaced in all directories found so far, one after another. -/
theorem expandComponent_value {component : String} {isLast : Bool}
    (haccepted : ∀ cause, ¬ Refuses component cause) (hlast : component = "" → isLast = false)
    (found : List String) :
    (s.expandComponent component isLast found).value =
      .ok (found.flatMap fun directory => (s.choices component isLast directory).map
        fun name => spell (directory ++ name) isLast) := by
  by_cases hempty : component = ""
  · subst hempty
    rw [expandComponent, if_pos rfl, Logged.pure_value, List.map_eq_flatMap]
    simp [choices, candidates, not_isPattern_empty, hlast rfl, spell]
  · have hchoices : ∀ directory, (s.choices component isLast directory).map
        (fun name => spell (directory ++ name) isLast) =
          (s.candidates component directory).filterMap (s.extend isLast directory) := by
      intro directory
      rw [filterMap_extend, choices]
      simp [hempty]
    simp only [hchoices]
    rw [expandComponent, if_neg hempty]
    by_cases hpattern : Glob.isPattern component
    · cases hparse : Glob.parse component with
      | error e => exact absurd ⟨hpattern, hparse⟩ (haccepted e)
      | ok glob =>
        rw [if_pos hpattern]
        simp only [Logged.bind_value, Logged.pure_value, Logged.mapM_value, namesIn_value,
          List.flatMap_def, candidates, if_pos hpattern, hparse]
    · rw [if_neg hpattern, Logged.pure_value, List.filterMap_eq_flatMap_toList]
      have hsingle : ∀ directory, (s.candidates component directory).filterMap
          (s.extend isLast directory) = (s.extend isLast directory component).toList := by
        intro directory
        rw [candidates, if_neg hpattern, List.filterMap_eq_flatMap_toList, List.flatMap_singleton]
      simp only [hsingle]

theorem expandComponent_value_of_refuses {component : String} {cause : GlobError}
    (h : Refuses component cause) (isLast : Bool) (found : List String) :
    (s.expandComponent component isLast found).value = .error ⟨component, cause⟩ := by
  have hne : component ≠ "" := fun hempty => not_isPattern_empty (hempty ▸ h.1)
  rw [expandComponent, if_neg hne, if_pos h.1, h.2, Logged.pure_value]

/-! ## All components -/

/-- The ways to replace the components behind some directories. -/
def selections : String → List String → List (List String)
  | _, [] => [[]]
  | directory, component :: rest =>
      (s.choices component rest.isEmpty directory).flatMap fun name =>
        (selections (directory ++ name ++ "/") rest).map (name :: ·)

/-- A selection replaces every component. -/
theorem length_of_mem_selections {directory : String} {components chosen : List String}
    (h : chosen ∈ s.selections directory components) : chosen.length = components.length := by
  induction components generalizing directory chosen with
  | nil => simp_all [selections]
  | cons component rest ih =>
    obtain ⟨name, -, hchosen⟩ := List.mem_flatMap.1 h
    obtain ⟨others, hothers, rfl⟩ := List.mem_map.1 hchosen
    rw [List.length_cons, List.length_cons, ih hothers]

/-- What is behind the last component does not matter. -/
theorem selections_spell (path : String) (components : List String) :
    s.selections (spell path components.isEmpty) components =
      s.selections (path ++ "/") components := by
  cases components <;> rfl

/-- A path goes on behind its first name. -/
theorem spell_append_intercalate {name : String} {components chosen : List String}
    (hlength : chosen.length = components.length) (directory : String) :
    spell (directory ++ name) components.isEmpty ++ "/".intercalate chosen =
      directory ++ "/".intercalate (name :: chosen) := by
  cases components with
  | nil =>
    obtain rfl := List.eq_nil_of_length_eq_zero hlength
    simp [spell]
  | cons component rest =>
    have hne : chosen ≠ [] := List.ne_nil_of_length_eq_add_one hlength
    rw [String.intercalate_cons_of_ne_nil hne]
    simp [spell, String.append_assoc]

/-- **The search finds what is selected.**  It replaces one component in all directories before it
goes on to the next one.  Replacing all components in one directory after another gives the same
paths. -/
theorem expandFrom_value {components : List String}
    (haccepted : ∀ component ∈ components, ∀ cause, ¬ Refuses component cause)
    (hlast : components.getLast? ≠ some "") (found : List String) :
    (s.expandFrom components found).value = .ok (found.flatMap fun directory =>
      (s.selections directory components).map fun chosen =>
        directory ++ "/".intercalate chosen) := by
  induction components generalizing found with
  | nil => simp [expandFrom, selections]
  | cons component rest ih =>
    obtain ⟨hcomponent, hrest⟩ := List.forall_mem_cons.1 haccepted
    have hend : component = "" → rest.isEmpty = false := by
      rintro rfl
      cases rest with
      | nil => exact absurd rfl hlast
      | cons => rfl
    have hlast' : rest.getLast? ≠ some "" := by
      cases rest with
      | nil => simp
      | cons c cs => simpa [List.getLast?_cons_cons] using hlast
    rw [expandFrom, Logged.bind_value, s.expandComponent_value hcomponent hend]
    have hbehind : ∀ directory name, (s.selections (spell (directory ++ name) rest.isEmpty) rest).map
        (fun chosen => spell (directory ++ name) rest.isEmpty ++ "/".intercalate chosen) =
          (s.selections (directory ++ name ++ "/") rest).map
            fun chosen => directory ++ "/".intercalate (name :: chosen) := by
      intro directory name
      rw [selections_spell]
      exact List.map_congr_left fun chosen hchosen =>
        spell_append_intercalate (s.length_of_mem_selections hchosen) directory
    simp only [ih hrest hlast', List.flatMap_assoc, List.flatMap_map, hbehind, selections,
      List.map_flatMap, List.map_map, Function.comp_def]

/-- The first component that is refused, with the reason. -/
def FirstRefused (components : List String) (e : PatternError) : Prop :=
  ∃ before after, components = before ++ e.component :: after ∧
    (∀ component ∈ before, ∀ cause, ¬ Refuses component cause) ∧ Refuses e.component e.cause

/-- **The search fails at the first component that is refused**, whatever was found before. -/
theorem expandFrom_value_of_firstRefused {components : List String} {e : PatternError}
    (h : FirstRefused components e) (found : List String) : (s.expandFrom components found).value =
      .error e := by
  obtain ⟨before, after, rfl, hbefore, hrefused⟩ := h
  induction before generalizing found with
  | nil =>
    rw [List.nil_append, expandFrom, Logged.bind_value,
      s.expandComponent_value_of_refuses hrefused]
    rfl
  | cons component before ih =>
    obtain ⟨hcomponent, hbefore⟩ := List.forall_mem_cons.1 hbefore
    have hmore : (before ++ e.component :: after).isEmpty = false := by simp
    rw [List.cons_append, expandFrom, Logged.bind_value,
      s.expandComponent_value hcomponent fun _ => hmore]
    exact ih _ hbefore

/-- The search either fails at a component or finds what is selected. -/
theorem firstRefused_or_accepted (components : List String) :
    (∃ e, FirstRefused components e) ∨
      ∀ component ∈ components, ∀ cause, ¬ Refuses component cause := by
  induction components with
  | nil => exact .inr (by simp)
  | cons component rest ih =>
    by_cases hrefused : ∃ cause, Refuses component cause
    · obtain ⟨cause, hcause⟩ := hrefused
      exact .inl ⟨⟨component, cause⟩, [], rest, rfl, by simp, hcause⟩
    · rcases ih with ⟨e, before, after, rfl, hbefore, hfirst⟩ | haccepted
      · exact .inl ⟨e, component :: before, after, rfl,
          List.forall_mem_cons.2 ⟨not_exists.1 hrefused, hbefore⟩, hfirst⟩
      · exact .inr (List.forall_mem_cons.2 ⟨not_exists.1 hrefused, haccepted⟩)

/-! ## What is selected -/

/-- The text of the directories with the given names. -/
def directoryOf (names : List String) : String := String.join (names.map (· ++ "/"))

/-- Names that stand for all components behind some directories, each behind those before it. -/
def ReplacesAll (directory : String) (components names : List String) : Prop :=
  names.length = components.length ∧
    ∀ i component name, components[i]? = some component → names[i]? = some name →
      s.Replaces (directory ++ directoryOf (names.take i)) component (i + 1 = components.length) name

theorem directoryOf_cons (name : String) (names : List String) :
    directoryOf (name :: names) = name ++ "/" ++ directoryOf names := by
  simp [directoryOf]

theorem replacesAll_cons {directory component name : String} {rest names : List String} :
    s.ReplacesAll directory (component :: rest) (name :: names) ↔
      s.Replaces directory component rest.isEmpty name ∧
        s.ReplacesAll (directory ++ name ++ "/") rest names := by
  have hfirst : decide (0 + 1 = (component :: rest).length) = rest.isEmpty := by
    cases rest <;> simp
  constructor
  · rintro ⟨hlength, hall⟩
    refine ⟨?_, Nat.succ.inj hlength, fun i c n hc hn => ?_⟩
    · have h := hall 0 component name rfl rfl
      rw [hfirst] at h
      simpa [directoryOf] using h
    · have h := hall (i + 1) c n hc hn
      simpa [directoryOf_cons, String.append_assoc] using h
  · rintro ⟨hreplaces, hlength, hall⟩
    refine ⟨congrArg Nat.succ hlength, fun i c n hc hn => ?_⟩
    cases i with
    | zero =>
      cases hc
      cases hn
      rw [hfirst]
      simpa [directoryOf] using hreplaces
    | succ i =>
      have h := hall i c n hc hn
      simpa [directoryOf_cons, String.append_assoc] using h

theorem mem_selections {directory : String} {components chosen : List String} :
    chosen ∈ s.selections directory components ↔ s.ReplacesAll directory components chosen := by
  induction components generalizing directory chosen with
  | nil =>
    constructor
    · intro h
      rw [List.mem_singleton.1 h]
      exact ⟨rfl, fun i c n hc => by simp at hc⟩
    · rintro ⟨hlength, -⟩
      exact List.mem_singleton.2 (List.eq_nil_of_length_eq_zero hlength)
  | cons component rest ih =>
    constructor
    · intro h
      obtain ⟨name, hname, hchosen⟩ := List.mem_flatMap.1 h
      obtain ⟨others, hothers, rfl⟩ := List.mem_map.1 hchosen
      exact s.replacesAll_cons.2 ⟨s.mem_choices.1 hname, ih.1 hothers⟩
    · intro h
      obtain ⟨name, others, rfl⟩ := List.exists_cons_of_length_eq_add_one h.1
      obtain ⟨hname, hothers⟩ := s.replacesAll_cons.1 h
      exact List.mem_flatMap.2 ⟨name, s.mem_choices.2 hname,
        List.mem_map_of_mem (ih.2 hothers)⟩

/-- A directory lists every name once, and there is no slash in a name. -/
structure Lawful : Prop where
  nodup : ∀ directory names, s.names directory = .ok names → names.Nodup
  slash_not_mem : ∀ directory names, s.names directory = .ok names →
    ∀ name ∈ names, '/' ∉ name.toList

section Lawful

variable {s} (hs : s.Lawful)

include hs

theorem Lawful.nodup_choices (component : String) (isLast : Bool) (directory : String) :
    (s.choices component isLast directory).Nodup := by
  refine List.Nodup.filter _ ?_
  rw [candidates]
  by_cases hpattern : Glob.isPattern component
  · rw [if_pos hpattern]
    cases Glob.parse component with
    | error e => exact List.nodup_nil
    | ok glob =>
      refine List.Nodup.filter _ ?_
      rw [listing]
      cases hnames : s.names (listedAs directory) with
      | error e => exact List.nodup_nil
      | ok names => exact hs.nodup _ names hnames
  · rw [if_neg hpattern]
    exact List.nodup_singleton _

/-- Nothing is selected twice. -/
theorem Lawful.nodup_selections (directory : String) (components : List String) :
    (s.selections directory components).Nodup := by
  induction components generalizing directory with
  | nil => exact List.nodup_singleton _
  | cons component rest ih =>
    refine List.nodup_flatMap.2 ⟨fun name _ => (ih _).map (List.cons_injective), ?_⟩
    refine (hs.nodup_choices _ _ _).imp fun {a b} hne => ?_
    rintro chosen ha hb
    obtain ⟨others, -, rfl⟩ := List.mem_map.1 ha
    obtain ⟨others', -, hsame⟩ := List.mem_map.1 hb
    exact hne (List.cons.inj hsame).1.symm

/-- No name that is selected holds a slash. -/
theorem Lawful.slash_not_mem_of_replacesAll {directory : String} {components chosen : List String}
    (hcomponents : ∀ component ∈ components, '/' ∉ component.toList)
    (h : s.ReplacesAll directory components chosen) : ∀ name ∈ chosen, '/' ∉ name.toList := by
  intro name hname
  obtain ⟨i, hi, rfl⟩ := List.mem_iff_getElem.1 hname
  have hplace : i < components.length := h.1 ▸ hi
  have hreplaces := h.2 i _ _ (List.getElem?_eq_getElem hplace) (List.getElem?_eq_getElem hi)
  by_cases hpattern : Glob.isPattern components[i]
  · obtain ⟨⟨names, hnames, hlisted⟩, -⟩ := hreplaces.matched hpattern
    exact hs.slash_not_mem _ names hnames _ hlisted
  · rw [hreplaces.kept hpattern]
    exact hcomponents _ (List.getElem_mem hplace)

/-- Different selections make different paths. -/
theorem Lawful.nodup_paths (directory : String) {components : List String}
    (hne : components ≠ []) (hcomponents : ∀ component ∈ components, '/' ∉ component.toList) :
    ((s.selections directory components).map ("/".intercalate ·)).Nodup := by
  refine (hs.nodup_selections directory components).map_on fun chosen hchosen others hothers h => ?_
  have hback : ∀ names ∈ s.selections directory components,
      Tree.components ("/".intercalate names) = names := by
    intro names hnames
    refine Tree.components_intercalate ?_
      (hs.slash_not_mem_of_replacesAll hcomponents (s.mem_selections.1 hnames))
    rw [← List.length_pos_iff, s.length_of_mem_selections hnames]
    exact List.length_pos_iff.2 hne
  rw [← hback chosen hchosen, h, hback others hothers]

end Lawful

/-- What is selected is a matter of what the directories list, in whatever order, and of what the
paths lead to. -/
theorem replacesAll_congr {s t : Surroundings} (hkind : ∀ path, s.kind? path = t.kind? path)
    (hlists : ∀ directory name, s.Lists directory name ↔ t.Lists directory name)
    {directory : String} {components names : List String} :
    s.ReplacesAll directory components names ↔ t.ReplacesAll directory components names := by
  have hreplaces : ∀ directory component isLast name,
      s.Replaces directory component isLast name ↔ t.Replaces directory component isLast name := by
    intro directory component isLast name
    constructor
    · rintro ⟨hkept, hmatched, hkinds⟩
      simp only [hkind, hlists] at hmatched hkinds
      exact ⟨hkept, hmatched, hkinds⟩
    · rintro ⟨hkept, hmatched, hkinds⟩
      simp only [← hkind, ← hlists] at hmatched hkinds
      exact ⟨hkept, hmatched, hkinds⟩
  simp only [ReplacesAll, hreplaces]

end Surroundings

/-! ## Trees -/

/-- A place is directly below another one if its components are one more. -/
theorem Tree.childName?_eq_some_iff {directory : Place} {place name : String} :
    childName? directory place = some name ↔ components place = (name :: directory).reverse := by
  rw [childName?, ← List.reverse_eq_iff]
  cases (components place).reverse with
  | nil => simp
  | cons first above => by_cases habove : above = directory <;> simp [habove]

/-- What a directory of a tree lists is directly below it. -/
theorem Tree.exists_place_of_names {t : Tree} {path : String} {names : List String}
    (h : t.names path = .ok names) :
    ∃ here, names = t.contents.names.filterMap (childName? here) := by
  rw [Tree.names] at h
  cases hplace : t.place path with
  | error e =>
    rw [hplace] at h
    cases h
  | ok here =>
    simp only [hplace, bind, Except.bind] at h
    split at h
    · cases h
    · cases h
    · cases h
      exact ⟨here, rfl⟩

/-- **The directories of a tree list every name once**, and no name holds a slash. -/
theorem Tree.lawful_surroundings (t : Tree) : t.surroundings.Lawful where
  nodup := by
    intro directory names h
    obtain ⟨here, rfl⟩ := exists_place_of_names h
    refine t.contents.nodup_names.filterMap fun place other name hplace hother => ?_
    have hsame : components place = components other :=
      (childName?_eq_some_iff.1 hplace).trans (childName?_eq_some_iff.1 hother).symm
    rw [← intercalate_components place, hsame, intercalate_components]
  slash_not_mem := by
    intro directory names h name hname
    obtain ⟨here, rfl⟩ := exists_place_of_names h
    obtain ⟨place, -, hplace⟩ := List.mem_filterMap.1 hname
    have hcomponent : name ∈ components place := by
      rw [childName?_eq_some_iff.1 hplace]
      simp
    exact slash_not_mem_of_mem_components hcomponent

end Files
end PostRun
