import Mathlib.Data.List.Basic
import PostRun.Proofs.Text.Digits
import PostRun.Poisson.Segment
import PostRun.Volume.Layout

/-!
# The names of the elements

An element is stored under its written name, and the names of all elements stand in one run of text
with a colon behind each.  So two things are asked of a written name: that it belongs to one element
only, and that there is no colon in it.

A name is made of three numbers with fixed characters between them, and nothing in it depends on the
numbers being those of a segment.  So names are given to places first, which are any three numbers
(`Place.text`).  A name can be read, since each number ends at a character that is no digit, and only
what is written is read (`Place.ofText?_eq_some_iff`).  An element has the name of its place.
-/

namespace PostRun
namespace Poisson

/-- A block, a level and an index, which need not have an element. -/
structure Place where
  block : Nat
  level : Nat
  index : Nat
  deriving DecidableEq

namespace Place

/-- The written name of a place. -/
def text (p : Place) : String :=
  "[B" ++ toString p.block ++ ",(L" ++ toString p.level ++ "I" ++ toString p.index ++ ")]"

/-- The characters of a name. -/
theorem toList_text (p : Place) :
    p.text.toList = ['[', 'B'] ++ ((toString p.block).toList ++ ([',', '(', 'L'] ++
      ((toString p.level).toList ++ (['I'] ++ ((toString p.index).toList ++ [')', ']']))))) := by
  simp [text]

/-- The place that a name is written for. -/
def ofText? (name : String) : Option Place :=
  (name.toList.dropPrefix? ['[', 'B']).bind fun behind =>
    (Text.number? behind).bind fun block =>
      (block.2.dropPrefix? [',', '(', 'L']).bind fun behind =>
        (Text.number? behind).bind fun level =>
          (level.2.dropPrefix? ['I']).bind fun behind =>
            (Text.number? behind).bind fun index =>
              if index.2 = [')', ']'] then some ⟨block.1, level.1, index.1⟩ else none

/-- **A name is read as the place that it is written for**, and nothing else is read. -/
theorem ofText?_eq_some_iff {name : String} {p : Place} :
    ofText? name = some p ↔ name = p.text := by
  have hmark : ∀ {cs mark rest : List Char},
      cs.dropPrefix? mark = some rest ↔ cs = mark ++ rest := by
    simp [List.dropPrefix?_eq_some_iff]
  rw [← String.toList_inj, toList_text]
  simp only [ofText?, Option.bind_eq_some_iff, hmark, Prod.exists, Text.number?_eq_some_iff]
  constructor
  · rintro ⟨_, hname, block, _, ⟨rfl, -⟩, _, rfl, level, _, ⟨rfl, -⟩, _, rfl, index, _, ⟨rfl, -⟩,
      hend⟩
    split at hend
    next hclosed =>
      obtain rfl := Option.some.inj hend
      rw [hname, hclosed]
    next => cases hend
  · intro hname
    exact ⟨_, hname, p.block, _, ⟨rfl, Text.endsNumber_cons rfl _⟩, _, rfl,
      p.level, _, ⟨rfl, Text.endsNumber_cons rfl _⟩, _, rfl,
      p.index, _, ⟨rfl, Text.endsNumber_cons rfl _⟩, if_pos rfl⟩

@[simp] theorem ofText?_text (p : Place) : ofText? p.text = some p := ofText?_eq_some_iff.2 rfl

/-- Two places do not have the same name. -/
theorem text_injective : Function.Injective text := by
  intro p q h
  have hread := ofText?_text p
  rw [h, ofText?_text] at hread
  exact (Option.some.inj hread).symm

/-- There is no colon in a name, which ends the names in a run of text. -/
theorem nameEnd_not_mem_text (p : Place) : Volume.nameEnd ∉ p.text.toList := by
  have hdigits := Text.not_mem_toString (rfl : Volume.nameEnd.isDigit = false)
  simp only [toList_text, List.mem_append, hdigits, false_or]
  decide

end Place

namespace ElementId

/-- The place of an element. -/
def place (id : ElementId) : Place := ⟨id.block, id.segment.level, id.segment.index⟩

theorem place_injective : Function.Injective place := by
  rintro ⟨block, level, index, _, _⟩ ⟨block', level', index', _, _⟩ h
  obtain ⟨rfl, rfl, rfl⟩ := Place.mk.inj h
  rfl

/-- An element has the name of its place. -/
theorem text_eq (id : ElementId) : id.text = id.place.text := rfl

/-- **An element is known by its name.** -/
theorem text_injective : Function.Injective text := by
  intro a b h
  rw [text_eq, text_eq] at h
  exact place_injective (Place.text_injective h)

theorem nameEnd_not_mem_text (id : ElementId) : Volume.nameEnd ∉ id.text.toList := by
  rw [text_eq]
  exact id.place.nameEnd_not_mem_text

end ElementId
end Poisson
end PostRun
