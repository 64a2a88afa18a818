import PostRun.Text.Escape

/-!
# Reading escaped text

Text between tags, or in a quoted attribute value, is read back by putting a character in
the place of every entity.  An ampersand opens an entity, the next semicolon closes it, and
an entity that is not among the five has no reading.  This is what a reader of markup does;
it is stated here without regard to how text is escaped.

* `unescape_escape`: escaped text reads as the text, whatever characters it holds.
* `escape_injective`: two texts are never written alike.
* `hasOnlyEntities_escape`: no ampersand of escaped text stands for itself.
-/

namespace PostRun
namespace Text

/-- The entities by their names. -/
def entityNames : List (List Char × Char) :=
  [("lt".toList, '<'), ("gt".toList, '>'), ("amp".toList, '&'), ("apos".toList, '\''),
    ("quot".toList, '"')]

/-- Reads escaped text.  Inside an entity, what was read of its name is held in reverse. -/
def unescapeFrom : Option (List Char) → List Char → Option (List Char)
  | none, [] => some []
  | none, c :: cs =>
      if c = '&' then unescapeFrom (some []) cs else (unescapeFrom none cs).map (c :: ·)
  | some _, [] => none
  | some name, c :: cs =>
      if c = ';' then
        (entityNames.lookup name.reverse).bind fun d => (unescapeFrom none cs).map (d :: ·)
      else unescapeFrom (some (c :: name)) cs

/-- The text that escaped text stands for. -/
def unescape (cs : List Char) : Option (List Char) := unescapeFrom none cs

/-- A character is read back, and what follows it is read as if it stood alone. -/
theorem unescapeFrom_entity (c : Char) (cs : List Char) :
    unescapeFrom none (entity c ++ cs) = (unescapeFrom none cs).map (c :: ·) := by
  unfold entity
  split
  iterate 5 rfl
  · next hamp _ _ => exact if_neg hamp

/-- **Escaped text reads as the text.** -/
theorem unescape_escape (cs : List Char) : unescape (escape cs) = some cs := by
  induction cs with
  | nil => rfl
  | cons c cs ih =>
    rw [escape_cons, unescape, unescapeFrom_entity, ← unescape, ih, Option.map_some]

theorem escape_injective : Function.Injective escape := fun a b h =>
  Option.some.inj (by rw [← unescape_escape a, h, unescape_escape b])

example : unescape "R&amp;D &lt;run&gt;".toList = some "R&D <run>".toList := by decide

example : unescape "&nbsp;".toList = none := by decide

/-! ## Ampersands -/

/-- Every ampersand begins one of the five entities. -/
def HasOnlyEntities (cs : List Char) : Prop :=
  ∀ before after, cs = before ++ '&' :: after → ∃ e ∈ entityNames, e.1 ++ [';'] <+: after

namespace HasOnlyEntities

variable {a b cs : List Char}

theorem of_not_mem (h : '&' ∉ cs) : HasOnlyEntities cs := by
  rintro before after rfl
  exact absurd (List.mem_append_right before List.mem_cons_self) h

theorem append (ha : HasOnlyEntities a) (hb : HasOnlyEntities b) : HasOnlyEntities (a ++ b) := by
  intro before after h
  rcases List.append_eq_append_iff.1 h with ⟨mid, rfl, hmid⟩ | ⟨mid, hmid, hafter⟩
  · exact hb mid after hmid
  · obtain _ | ⟨c, mid⟩ := mid
    · exact hb [] after hafter.symm
    · rw [List.cons_append, List.cons.injEq] at hafter
      obtain ⟨rfl, rfl⟩ := hafter
      obtain ⟨e, he, hprefix⟩ := ha before mid hmid
      exact ⟨e, he, hprefix.trans (List.prefix_append mid b)⟩

/-- An entity is one. -/
theorem of_mem {e : List Char × Char} (he : e ∈ entityNames) (hname : '&' ∉ e.1) :
    HasOnlyEntities ('&' :: e.1 ++ [';']) := by
  rintro (_ | ⟨c, before⟩) after h
  · rw [List.nil_append, List.cons_append, List.cons.injEq] at h
    exact ⟨e, he, h.2 ▸ List.prefix_rfl⟩
  · rw [List.cons_append, List.cons_append, List.cons.injEq] at h
    have hmem : '&' ∈ e.1 ++ [';'] := by simp [h.2]
    simp [hname] at hmem

end HasOnlyEntities

theorem hasOnlyEntities_entity (c : Char) : HasOnlyEntities (entity c) := by
  unfold entity
  split
  · exact .of_mem (show ("lt".toList, '<') ∈ entityNames by decide) (by decide)
  · exact .of_mem (show ("gt".toList, '>') ∈ entityNames by decide) (by decide)
  · exact .of_mem (show ("amp".toList, '&') ∈ entityNames by decide) (by decide)
  · exact .of_mem (show ("apos".toList, '\'') ∈ entityNames by decide) (by decide)
  · exact .of_mem (show ("quot".toList, '"') ∈ entityNames by decide) (by decide)
  · next hamp _ _ => exact .of_not_mem (by simpa using Ne.symm hamp)

/-- **In escaped text every ampersand begins an entity.** -/
theorem hasOnlyEntities_escape (cs : List Char) : HasOnlyEntities (escape cs) := by
  induction cs with
  | nil => exact .of_not_mem (by simp)
  | cons c cs ih => exact (hasOnlyEntities_entity c).append ih

end Text
end PostRun
