/-!
# Text inside markup

The five characters that markup gives a meaning to are written as entities, and every
other character as itself.  Escaped text holds none of `<`, `>` and the two quotes, so
it can stand between tags as well as inside a quoted attribute value.
-/

namespace PostRun
namespace Text

/-- A character as it is written inside markup. -/
def entity : Char → List Char
  | '<' => "&lt;".toList
  | '>' => "&gt;".toList
  | '&' => "&amp;".toList
  | '\'' => "&apos;".toList
  | '"' => "&quot;".toList
  | c => [c]

/-- Text as it is written inside markup. -/
def escape (cs : List Char) : List Char := cs.flatMap entity

@[simp] theorem escape_nil : escape [] = [] := rfl

@[simp] theorem escape_cons (c : Char) (cs : List Char) :
    escape (c :: cs) = entity c ++ escape cs := rfl

theorem escape_append (a b : List Char) : escape (a ++ b) = escape a ++ escape b := by
  simp [escape]

theorem not_mem_entity {c : Char} (hc : c = '<' ∨ c = '>' ∨ c = '\'' ∨ c = '"') (d : Char) :
    c ∉ entity d := by
  unfold entity
  split
  iterate 5 rcases hc with rfl | rfl | rfl | rfl <;> simp
  · next hlt hgt _ hapos hquot =>
    rw [List.mem_singleton]
    rintro rfl
    rcases hc with rfl | rfl | rfl | rfl
    · exact hlt rfl
    · exact hgt rfl
    · exact hapos rfl
    · exact hquot rfl

/-- Escaped text holds no bracket and no quote. -/
theorem not_mem_escape {c : Char} (hc : c = '<' ∨ c = '>' ∨ c = '\'' ∨ c = '"')
    (cs : List Char) : c ∉ escape cs := by
  intro hmem
  obtain ⟨d, -, hd⟩ := List.mem_flatMap.1 hmem
  exact not_mem_entity hc d hd

end Text
end PostRun
