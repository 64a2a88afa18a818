/-!
# Maps from names

A finite map from names, listed in ascending order of the names.  The order is
that of the characters, which is also the order of the UTF-8 bytes.  It is part
of the type, so two maps with the same bindings are the same list and a listing
never depends on the order of the insertions.
-/

namespace PostRun

/-- A finite map from names, in ascending order. -/
structure NameMap (β : Type u) where
  entries : List (String × β)
  sorted : entries.Pairwise fun a b => a.1 < b.1

namespace NameMap

variable {β : Type u}

/-- The map without bindings. -/
def empty : NameMap β := ⟨[], .nil⟩

instance : Inhabited (NameMap β) := ⟨empty⟩

/-- The names, ascending. -/
def names (m : NameMap β) : List String := m.entries.map (·.1)

/-- The value bound to a name. -/
def find? (m : NameMap β) (name : String) : Option β :=
  (m.entries.find? fun e => e.1 == name).map (·.2)

/-- Replaces the value of a name by a function of the old one, if there is one, at its place in
the order. -/
def alterList (name : String) (f : Option β → β) : List (String × β) → List (String × β)
  | [] => [(name, f none)]
  | e :: es =>
      if name < e.1 then (name, f none) :: e :: es
      else if name = e.1 then (name, f (some e.2)) :: es
      else e :: alterList name f es

theorem mem_alterList {name : String} {f : Option β → β} {es : List (String × β)} {a : String × β}
    (h : a ∈ alterList name f es) : a.1 = name ∨ a ∈ es := by
  induction es with
  | nil => simp [alterList] at h; simp [h]
  | cons e es ih =>
    unfold alterList at h
    split at h
    · rcases List.mem_cons.1 h with rfl | h
      · simp
      · exact .inr h
    · split at h
      · rcases List.mem_cons.1 h with rfl | h
        · simp
        · exact .inr (.tail _ h)
      · rcases List.mem_cons.1 h with rfl | h
        · simp
        · exact (ih h).imp_right (.tail _)

theorem sorted_alterList (name : String) (f : Option β → β) {es : List (String × β)}
    (h : es.Pairwise fun a b => a.1 < b.1) :
    (alterList name f es).Pairwise fun a b => a.1 < b.1 := by
  induction es with
  | nil => simp [alterList]
  | cons e es ih =>
    have ⟨first, rest⟩ := List.pairwise_cons.1 h
    unfold alterList
    split
    · next lt =>
      refine List.pairwise_cons.2 ⟨fun a ha => ?_, h⟩
      rcases List.mem_cons.1 ha with rfl | ha
      · exact lt
      · exact String.lt_trans lt (first a ha)
    · next nlt =>
      split
      · next eq => exact List.pairwise_cons.2 ⟨fun a ha => eq ▸ first a ha, rest⟩
      · next ne =>
        refine List.pairwise_cons.2 ⟨fun a ha => ?_, ih rest⟩
        rcases mem_alterList ha with eq | ha
        · rw [eq]
          exact Std.lt_of_le_of_ne (String.not_lt.1 nlt) (Ne.symm ne)
        · exact first a ha

/-- Replaces the value of a name by a function of the old one, if there is one. -/
def alter (m : NameMap β) (name : String) (f : Option β → β) : NameMap β :=
  ⟨alterList name f m.entries, sorted_alterList name f m.sorted⟩

/-- Binds a name, whatever it was bound to before. -/
def insert (m : NameMap β) (name : String) (value : β) : NameMap β := m.alter name fun _ => value

/-- No name is bound twice. -/
theorem nodup_names (m : NameMap β) : m.names.Nodup :=
  List.pairwise_map.2 (m.sorted.imp fun h => String.ne_of_lt h)

/-- The names of a map are those that are bound. -/
theorem isSome_find? (m : NameMap β) (name : String) : (m.find? name).isSome ↔ name ∈ m.names := by
  simp [find?, names, List.find?_isSome]

/-- Another name stays bound to what it was bound to. -/
theorem find?_alterList_of_ne {name other : String} (h : other ≠ name) (f : Option β → β)
    (es : List (String × β)) :
    (alterList name f es).find? (fun e => e.1 == other) = es.find? fun e => e.1 == other := by
  induction es with
  | nil => simp [alterList, h.symm]
  | cons e es ih =>
    unfold alterList
    split
    · simp [h.symm]
    · split
      · next heq => simp [h.symm, ← heq]
      · simp only [List.find?_cons, ih]

/-- The name is bound to the new value.  The order matters: a name that comes before the first one
of the list is not bound further on. -/
theorem find?_alterList_self (name : String) (f : Option β → β) {es : List (String × β)}
    (h : es.Pairwise fun a b => a.1 < b.1) :
    (alterList name f es).find? (fun e => e.1 == name) =
      some (name, f ((es.find? fun e => e.1 == name).map (·.2))) := by
  induction es with
  | nil => simp [alterList]
  | cons e es ih =>
    have ⟨first, rest⟩ := List.pairwise_cons.1 h
    unfold alterList
    split
    · next lt =>
      have absent : (e :: es).find? (fun e => e.1 == name) = none := by
        refine List.find?_eq_none.2 fun a ha => ?_
        have greater : name < a.1 := by
          rcases List.mem_cons.1 ha with rfl | ha
          · exact lt
          · exact String.lt_trans lt (first a ha)
        simpa using (String.ne_of_lt greater).symm
      simp [absent]
    · split
      · next eq => simp [eq]
      · next ne => simp [Ne.symm ne, ih rest]

/-- What is bound after a change. -/
theorem find?_alter (m : NameMap β) (name : String) (f : Option β → β) (other : String) :
    (m.alter name f).find? other =
      if other = name then some (f (m.find? name)) else m.find? other := by
  unfold find? alter
  split
  · next eq => rw [eq, find?_alterList_self name f m.sorted, Option.map_some]
  · next ne => rw [find?_alterList_of_ne ne]

theorem find?_insert (m : NameMap β) (name : String) (value : β) (other : String) :
    (m.insert name value).find? other = if other = name then some value else m.find? other := by
  rw [insert, find?_alter]

@[simp] theorem names_empty : (empty : NameMap β).names = [] := rfl

@[simp] theorem find?_empty (name : String) : (empty : NameMap β).find? name = none := rfl

end NameMap
end PostRun
