/-!
# Cutting text at a separator

`pieces sep cs` cuts text at every separator.  There is always one piece more
than there are separators, and joining the pieces with the separator gives the
text back.
-/

namespace PostRun
namespace Text

/-- Puts a character in front of the first piece. -/
def consFirst (c : Char) : List (List Char) → List (List Char)
  | [] => [[c]]
  | p :: ps => (c :: p) :: ps

/-- The text between the separators, in order. -/
def pieces (sep : Char) : List Char → List (List Char)
  | [] => [[]]
  | c :: cs => if c = sep then [] :: pieces sep cs else consFirst c (pieces sep cs)

@[simp] theorem pieces_nil (sep : Char) : pieces sep [] = [[]] := rfl

@[simp] theorem pieces_cons_self (sep : Char) (cs : List Char) :
    pieces sep (sep :: cs) = [] :: pieces sep cs := by simp [pieces]

theorem pieces_cons_of_ne {sep c : Char} (h : c ≠ sep) (cs : List Char) :
    pieces sep (c :: cs) = consFirst c (pieces sep cs) := by simp [pieces, h]

theorem pieces_ne_nil (sep : Char) (cs : List Char) : pieces sep cs ≠ [] := by
  cases cs with
  | nil => simp
  | cons c cs =>
    by_cases h : c = sep
    · subst h; simp
    · rw [pieces_cons_of_ne h]
      cases pieces sep cs <;> simp [consFirst]

theorem pieces_of_not_mem {sep : Char} {a : List Char} (h : sep ∉ a) : pieces sep a = [a] := by
  induction a with
  | nil => rfl
  | cons c a ih =>
    obtain ⟨hc, ha⟩ := not_or.1 (mt List.mem_cons.2 h)
    rw [pieces_cons_of_ne (Ne.symm hc), ih ha, consFirst]

/-- The first piece ends at the first separator. -/
theorem pieces_append_cons {sep : Char} {a : List Char} (h : sep ∉ a) (b : List Char) :
    pieces sep (a ++ sep :: b) = a :: pieces sep b := by
  induction a with
  | nil => exact pieces_cons_self sep b
  | cons c a ih =>
    obtain ⟨hc, ha⟩ := not_or.1 (mt List.mem_cons.2 h)
    rw [List.cons_append, pieces_cons_of_ne (Ne.symm hc), ih ha, consFirst]

end Text
end PostRun
