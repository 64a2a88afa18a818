import Mathlib.Data.List.Nodup
import PostRun.Xdmf.Field

/-!
# Components and fields

Every component belongs to exactly one field.  Which field that is depends on one component
only, the one at whose place the field stands: a component of a complete vector is led by
the component along the first axis (`Field.leader`), and every other component leads itself.
A component stands in the field that is made at its leader and in no other
(`Field.mem_components_ofComponent?_iff`), so the fields of distinct components neither lose
one nor show one twice (`Field.flatMap_components_perm`).

A field also stands where its leader stood, so the fields are in order (`Field.map_lead_sublist`).
And what a component stands for is decided by which others there are, not by where they are.
`Field.ofComponents_partitions` puts this together.
-/

namespace PostRun
namespace Xdmf

/-! ## The axis in a name -/

namespace Axis

/-- The name of a component, read from its end. -/
theorem eq_component_iff {name base : String} {a : Axis} :
    name = component base a ↔ name.toList.reverse = a.letter :: '_' :: base.toList.reverse := by
  rw [← String.toList_inj, ← List.reverse_inj]
  simp [component]

theorem ofList_reverse_eq_iff {cs : List Char} {base : String} :
    String.ofList cs.reverse = base ↔ cs = base.toList.reverse := by
  rw [← String.toList_inj, String.toList_ofList, List.reverse_eq_iff]

/-- A name ends in an axis if it is the name of a component along that axis. -/
theorem ofName?_eq_some_iff {name base : String} {a : Axis} :
    ofName? name = some (base, a) ↔ name = component base a := by
  rw [eq_component_iff, ofName?]
  split
  · next cs h => cases a <;> simp [h, letter, ofList_reverse_eq_iff]
  · next cs h => cases a <;> simp [h, letter, ofList_reverse_eq_iff]
  · next cs h => cases a <;> simp [h, letter, ofList_reverse_eq_iff]
  · next hx hy hz =>
    simp only [reduceCtorEq, false_iff]
    intro h
    cases a with
    | x => exact hx _ h
    | y => exact hy _ h
    | z => exact hz _ h

theorem ofName?_component (base : String) (a : Axis) :
    ofName? (component base a) = some (base, a) := ofName?_eq_some_iff.2 rfl

/-- A component of a vector belongs to one base and one axis. -/
theorem component_inj {b b' : String} {a a' : Axis} (h : component b a = component b' a') :
    b = b' ∧ a = a' := by
  have hname := ofName?_component b a
  rw [h, ofName?_component] at hname
  cases hname
  exact ⟨rfl, rfl⟩

theorem mem_all (a : Axis) : a ∈ all := by cases a <;> decide

end Axis

namespace Field

/-! ## The leader of a component -/

/-- Whether all components of a vector are there. -/
def isComplete (names : List String) (base : String) : Bool :=
  (vector base).components.all names.contains

variable {names : List String}

theorem mem_components_vector {base n : String} :
    n ∈ (vector base).components ↔ ∃ a, n = Axis.component base a := by
  simp [components, Axis.mem_all, eq_comm]

theorem isComplete_iff {base : String} :
    isComplete names base ↔ ∀ a : Axis, Axis.component base a ∈ names := by
  simp [isComplete, components, Axis.mem_all]

/-- The component at whose place the field of a component stands. -/
def leader (names : List String) (name : String) : String :=
  match Axis.ofName? name with
  | none => name
  | some (base, _) => if isComplete names base then Axis.component base .x else name

/-- A component of a complete vector is led by the first one. -/
theorem leader_component {base : String} (h : isComplete names base) (a : Axis) :
    leader names (Axis.component base a) = Axis.component base .x := by
  rw [leader, Axis.ofName?_component]
  exact if_pos h

/-- A component of no complete vector leads itself. -/
theorem leader_eq_self {name : String}
    (h : ∀ base a, name = Axis.component base a → isComplete names base = false) :
    leader names name = name := by
  rw [leader]
  split
  · rfl
  · next base a hname =>
    rw [if_neg]
    simp [h base a (Axis.ofName?_eq_some_iff.1 hname)]

/-- The field at a component of a complete vector: none if another component leads it. -/
theorem ofComponent?_component {base : String} (h : isComplete names base) (a : Axis) :
    ofComponent? names (Axis.component base a) = if a = .x then some (vector base) else none := by
  rw [ofComponent?, Axis.ofName?_component]
  exact if_pos h

/-- The field at a component of no complete vector. -/
theorem ofComponent?_eq_scalar {name : String}
    (h : ∀ base a, name = Axis.component base a → isComplete names base = false) :
    ofComponent? names name = some (scalar name) := by
  rw [ofComponent?]
  split
  · rfl
  · next base a hname =>
    have hbase := h base a (Axis.ofName?_eq_some_iff.1 hname)
    rw [isComplete] at hbase
    rw [hbase]
    rfl

/-- A name is that of a component of a complete vector, or of none. -/
theorem component_or_single (names : List String) (name : String) :
    (∃ base a, name = Axis.component base a ∧ isComplete names base) ∨
      ∀ base a, name = Axis.component base a → isComplete names base = false := by
  by_cases h : ∃ base a, name = Axis.component base a ∧ isComplete names base
  · exact .inl h
  · refine .inr fun base a hname => ?_
    simpa using fun hbase => h ⟨base, a, hname, hbase⟩

/-- **A component stands in the field of its leader**, and in no other. -/
theorem mem_components_ofComponent?_iff {a n : String} (ha : a ∈ names) :
    (∃ f ∈ ofComponent? names a, n ∈ f.components) ↔ n ∈ names ∧ leader names n = a := by
  obtain ⟨base, axis, rfl, hbase⟩ | hsingle := component_or_single names a
  · rw [ofComponent?_component hbase]
    by_cases haxis : axis = .x
    · subst haxis
      simp only [if_true, Option.mem_def, Option.some.injEq, exists_eq_left',
        mem_components_vector]
      constructor
      · rintro ⟨a, rfl⟩
        exact ⟨isComplete_iff.1 hbase a, leader_component hbase a⟩
      · rintro ⟨-, hleader⟩
        obtain ⟨b, a, rfl, hb⟩ | hn := component_or_single names n
        · rw [leader_component hb] at hleader
          exact ⟨a, by rw [(Axis.component_inj hleader).1]⟩
        · exact ⟨.x, (leader_eq_self hn).symm.trans hleader⟩
    · refine iff_of_false (by simp [haxis]) ?_
      rintro ⟨-, hleader⟩
      obtain ⟨b, a, rfl, hb⟩ | hn := component_or_single names n
      · rw [leader_component hb] at hleader
        exact haxis (Axis.component_inj hleader).2.symm
      · have hname := (leader_eq_self hn).symm.trans hleader
        rw [hn base axis hname] at hbase
        cases hbase
  · rw [ofComponent?_eq_scalar hsingle]
    simp only [Option.mem_def, Option.some.injEq, exists_eq_left', components, List.mem_singleton]
    constructor
    · rintro rfl
      exact ⟨ha, leader_eq_self hsingle⟩
    · rintro ⟨-, hleader⟩
      obtain ⟨b, a', rfl, hb⟩ | hn := component_or_single names n
      · rw [leader_component hb] at hleader
        rw [hsingle b .x hleader.symm] at hb
        cases hb
      · exact (leader_eq_self hn).symm.trans hleader

/-- The leader of a component is one of the components. -/
theorem leader_mem {n : String} (h : n ∈ names) : leader names n ∈ names := by
  obtain ⟨b, a, rfl, hb⟩ | hn := component_or_single names n
  · rw [leader_component hb]
    exact isComplete_iff.1 hb .x
  · rwa [leader_eq_self hn]

/-! ## All fields -/

/-- The fields show the components that there are. -/
theorem mem_flatMap_components {n : String} :
    n ∈ (ofComponents names).flatMap components ↔ n ∈ names := by
  rw [List.mem_flatMap]
  constructor
  · rintro ⟨f, hf, hn⟩
    obtain ⟨a, ha, hfa⟩ := List.mem_filterMap.1 hf
    exact ((mem_components_ofComponent?_iff ha).1 ⟨f, hfa, hn⟩).1
  · intro hn
    have hleader := leader_mem hn
    obtain ⟨f, hf, hnf⟩ := (mem_components_ofComponent?_iff hleader).2 ⟨hn, rfl⟩
    exact ⟨f, List.mem_filterMap.2 ⟨_, hleader, hf⟩, hnf⟩

/-- The components of one field are distinct. -/
theorem nodup_components (f : Field) : f.components.Nodup := by
  cases f with
  | scalar name => simp [components]
  | vector base =>
    exact (by decide : Axis.all.Nodup).map fun a b h => (Axis.component_inj h).2

/-- Fields show no component twice. -/
theorem nodup_flatMap_components (h : names.Nodup) :
    ((ofComponents names).flatMap components).Nodup := by
  refine List.nodup_flatMap.2 ⟨fun f _ => nodup_components f, ?_⟩
  refine List.pairwise_filterMap.2 (h.imp_of_mem fun {a b} ha hb hab f hf f' hf' n hn hn' => ?_)
  have hna := ((mem_components_ofComponent?_iff ha).1 ⟨f, hf, hn⟩).2
  have hnb := ((mem_components_ofComponent?_iff hb).1 ⟨f', hf', hn'⟩).2
  exact hab (hna.symm.trans hnb)

/-- **Fields are a partition**: they show every component, and none of them twice. -/
theorem flatMap_components_perm (h : names.Nodup) :
    ((ofComponents names).flatMap components).Perm names :=
  (List.perm_ext_iff_of_nodup (nodup_flatMap_components h) h).2 fun _ => mem_flatMap_components

/-! ## Where fields stand -/

/-- The component at whose place a field stands. -/
def lead : Field → String
  | scalar name => name
  | vector base => Axis.component base .x

theorem lead_of_ofComponent? {n : String} {f : Field} (h : ofComponent? names n = some f) :
    f.lead = n := by
  obtain ⟨base, a, rfl, hbase⟩ | hsingle := component_or_single names n
  · rw [ofComponent?_component hbase] at h
    split at h
    · next haxis =>
      cases h
      rw [haxis]
      rfl
    · cases h
  · rw [ofComponent?_eq_scalar hsingle] at h
    cases h
    rfl

/-- A vector is shown if all its components are there. -/
theorem vector_mem_ofComponents {base : String} :
    vector base ∈ ofComponents names ↔ isComplete names base := by
  rw [ofComponents, List.mem_filterMap]
  constructor
  · rintro ⟨n, -, hn⟩
    obtain ⟨b, a, rfl, hb⟩ | hsingle := component_or_single names n
    · rw [ofComponent?_component hb] at hn
      split at hn
      · cases hn
        exact hb
      · cases hn
    · rw [ofComponent?_eq_scalar hsingle] at hn
      cases hn
  · intro hbase
    refine ⟨_, isComplete_iff.1 hbase .x, ?_⟩
    rw [ofComponent?_component hbase, if_pos rfl]

/-- A scalar is shown for a component that no vector takes in. -/
theorem scalar_mem_ofComponents {n : String} :
    scalar n ∈ ofComponents names ↔
      n ∈ names ∧ ∀ base a, n = Axis.component base a → isComplete names base = false := by
  rw [ofComponents, List.mem_filterMap]
  constructor
  · rintro ⟨m, hm, hfield⟩
    obtain rfl : n = m := lead_of_ofComponent? hfield
    obtain ⟨b, a, rfl, hb⟩ | hsingle := component_or_single names n
    · rw [ofComponent?_component hb] at hfield
      split at hfield <;> cases hfield
    · exact ⟨hm, hsingle⟩
  · rintro ⟨hn, hsingle⟩
    exact ⟨n, hn, ofComponent?_eq_scalar hsingle⟩

theorem isComplete_iff_names {base : String} :
    isComplete names base ↔ base ++ "_x" ∈ names ∧ base ++ "_y" ∈ names ∧ base ++ "_z" ∈ names := by
  rw [isComplete_iff]
  refine ⟨fun h => ⟨h .x, h .y, h .z⟩, fun ⟨hx, hy, hz⟩ a => ?_⟩
  cases a with
  | x => exact hx
  | y => exact hy
  | z => exact hz

/-- Fields stand in the order of the components that lead them. -/
theorem map_lead_sublist (names : List String) :
    ((ofComponents names).map lead).Sublist names := by
  have hall : ∀ ns : List String, ((ns.filterMap (ofComponent? names)).map lead).Sublist ns := by
    intro ns
    induction ns with
    | nil => exact List.Sublist.refl _
    | cons n ns ih =>
      cases hfield : ofComponent? names n with
      | none =>
        rw [List.filterMap_cons_none hfield]
        exact ih.cons n
      | some f =>
        rw [List.filterMap_cons_some hfield, List.map_cons, lead_of_ofComponent? hfield]
        exact ih.cons_cons n
  exact hall names

/-- No field is shown twice. -/
theorem nodup_ofComponents (h : names.Nodup) : (ofComponents names).Nodup :=
  ((map_lead_sublist names).nodup h).of_map lead

/-- What a component stands for does not hang on the order of the others. -/
theorem ofComponent?_perm {names' : List String} (h : names'.Perm names) :
    ofComponent? names' = ofComponent? names := by
  have hcomplete : ∀ base, isComplete names' base = isComplete names base := by
    intro base
    rw [Bool.eq_iff_iff, isComplete_iff, isComplete_iff]
    exact forall_congr' fun a => h.mem_iff
  funext n
  unfold ofComponent?
  split
  · rfl
  · next base a _ =>
    have hbase := hcomplete base
    rw [isComplete, isComplete] at hbase
    rw [hbase]

theorem ofComponents_perm {names' : List String} (h : names'.Perm names) :
    (ofComponents names').Perm (ofComponents names) := by
  rw [ofComponents, ofComponents, ofComponent?_perm h]
  exact h.filterMap _

/-- **Fields are the components, grouped.**  The components of the fields are the given ones, each
once.  A vector is shown, once, exactly when its three components are there.  Fields stand in the
order of the scalars and of the first components of the vectors, and the order of the components
makes no difference to which fields are shown. -/
theorem ofComponents_partitions (h : names.Nodup) :
    ((ofComponents names).flatMap components).Perm names ∧
    (∀ base, (ofComponents names).count (vector base) =
      if base ++ "_x" ∈ names ∧ base ++ "_y" ∈ names ∧ base ++ "_z" ∈ names then 1 else 0) ∧
    ((ofComponents names).map lead).Sublist names ∧
    ∀ names' : List String, names'.Perm names →
      (ofComponents names').Perm (ofComponents names) := by
  refine ⟨flatMap_components_perm h, fun base => ?_, map_lead_sublist names,
    fun _ => ofComponents_perm⟩
  rw [(nodup_ofComponents h).count]
  exact if_congr (vector_mem_ofComponents.trans isComplete_iff_names) rfl rfl

/-- Names whose suffixes are nested, a vector without a name, and a vector that bears the name of a
component. -/
theorem ofComponents_partitions_nested :
    ["_z", "a_x_x", "_x", "é_y", "v_z", "_y", "v", "v_x", "v_y"].Nodup ∧
    ofComponents ["_z", "a_x_x", "_x", "é_y", "v_z", "_y", "v", "v_x", "v_y"] =
      [scalar "a_x_x", vector "", scalar "é_y", scalar "v", vector "v"] ∧
    (ofComponents ["v", "_x", "v_y", "_y", "v_x", "é_y", "v_z", "_z", "a_x_x"]).Perm
      [scalar "a_x_x", vector "", scalar "é_y", scalar "v", vector "v"] := by
  have hnodup : ["_z", "a_x_x", "_x", "é_y", "v_z", "_y", "v", "v_x", "v_y"].Nodup := by decide
  have hfields : ofComponents ["_z", "a_x_x", "_x", "é_y", "v_z", "_y", "v", "v_x", "v_y"] =
      [scalar "a_x_x", vector "", scalar "é_y", scalar "v", vector "v"] := by decide
  refine ⟨hnodup, hfields, ?_⟩
  rw [← hfields]
  exact (ofComponents_partitions hnodup).2.2.2 _ (by decide)

end Field
end Xdmf
end PostRun
