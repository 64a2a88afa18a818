import PostRun.Text.Pieces

/-!
# Pieces of a text

What the pieces of a text are for whoever knows how lists are split, and what is known of a single
piece.
-/

namespace PostRun
namespace Text

/-- The pieces of a text are its list of characters, split. -/
theorem pieces_eq_splitOn (sep : Char) (cs : List Char) : pieces sep cs = cs.splitOn sep := by
  rw [List.splitOn_eq_splitOnP]
  induction cs with
  | nil => rfl
  | cons c cs ih =>
    rw [List.splitOnP_cons_eq_if_modifyHead, ← ih]
    by_cases hc : c = sep
    · subst hc
      rw [pieces_cons_self, if_pos (beq_self_eq_true c)]
    · obtain ⟨first, rest, hsplit⟩ := List.exists_cons_of_ne_nil (pieces_ne_nil sep cs)
      rw [pieces_cons_of_ne hc, if_neg (by simpa using hc), hsplit]
      rfl

/-- No piece holds the separator. -/
theorem not_mem_of_mem_pieces {sep : Char} {piece cs : List Char}
    (h : piece ∈ pieces sep cs) : sep ∉ piece := by
  induction cs generalizing piece with
  | nil => simp [pieces] at h; simp [h]
  | cons c cs ih =>
    by_cases hc : c = sep
    · subst hc
      rw [pieces_cons_self] at h
      rcases List.mem_cons.1 h with rfl | h
      · exact List.not_mem_nil
      · exact ih h
    · obtain ⟨first, rest, hsplit⟩ := List.exists_cons_of_ne_nil (pieces_ne_nil sep cs)
      rw [hsplit] at ih
      rw [pieces_cons_of_ne hc, hsplit, consFirst] at h
      rcases List.mem_cons.1 h with rfl | h
      · exact fun hmem => (List.mem_cons.1 hmem).elim (fun heq => hc heq.symm)
          (ih List.mem_cons_self)
      · exact ih (List.mem_cons_of_mem _ h)

/-- Text with a separator in it is cut before and behind it. -/
theorem pieces_append_sep_cons (sep : Char) (a b : List Char) :
    pieces sep (a ++ sep :: b) = pieces sep a ++ pieces sep b := by
  induction a with
  | nil => exact pieces_cons_self sep b
  | cons c a ih =>
    rw [List.cons_append]
    by_cases hc : c = sep
    · subst hc
      rw [pieces_cons_self, pieces_cons_self, ih, List.cons_append]
    · obtain ⟨first, rest, hsplit⟩ := List.exists_cons_of_ne_nil (pieces_ne_nil sep a)
      rw [pieces_cons_of_ne hc, pieces_cons_of_ne hc, ih, hsplit]
      rfl

/-- The last piece of a text is not empty if something without a separator stands at its end. -/
theorem getLast?_pieces_append_ne {sep : Char} {b : List Char} (hb : b ≠ []) (hsep : sep ∉ b)
    (a : List Char) : (pieces sep (a ++ b)).getLast? ≠ some [] := by
  induction a with
  | nil => simpa [pieces_of_not_mem hsep] using hb
  | cons c a ih =>
    rw [List.cons_append]
    obtain ⟨first, rest, hsplit⟩ := List.exists_cons_of_ne_nil (pieces_ne_nil sep (a ++ b))
    rw [hsplit] at ih
    by_cases hc : c = sep
    · subst hc
      rw [pieces_cons_self, hsplit, List.getLast?_cons_cons]
      exact ih
    · rw [pieces_cons_of_ne hc, hsplit, consFirst]
      cases rest with
      | nil => simp
      | cons second rest => simpa [List.getLast?_cons_cons] using ih

end Text
end PostRun
