import Mathlib.Data.List.Infix
import PostRun.Proofs.Text.Pieces
import PostRun.Volume.Layout

/-!
# Names in one run of text

The names of the elements are kept in one run of text with a colon behind each.  The colon ends a
name, it does not separate two of them: the text of no names is empty, and the text of one empty
name is a colon.  So `joinGridNames` and `splitGridNames` are inverse to each other on most of what
they are used for, and each of them loses something.

* Joining forgets where a name with colons in it began.  What is read back are the names cut at
  their own colons (`splitGridNames_joinGridNames_eq`), and these are the same names only if there
  was nothing to cut.
* Splitting forgets what stands behind the last colon.  What is written back is the front of the
  text up to there, which is the longest part at the front that is made of ended names
  (`isLongestFront_joinGridNames`).

Both follow from one equation each: text with a colon in it is cut before and behind it
(`Text.pieces_append_sep_cons`), and every piece but the last is followed by a colon
(`Text.exists_rest_of_pieces`).
-/

namespace PostRun

namespace Text

/-! ## Pieces with their ends -/

/-- Joining with separators puts one behind every piece but the last. -/
theorem intercalate_append_last (sep : Char) (init : List (List Char)) (last : List Char) :
    [sep].intercalate (init ++ [last]) = (init.flatMap fun piece => piece ++ [sep]) ++ last := by
  induction init with
  | nil => simp
  | cons piece init ih =>
    rw [List.cons_append, List.intercalate_cons_of_ne_nil (by simp), ih, List.flatMap_cons]
    simp

/-- A text is made of its pieces: every one but the last with the separator behind it, and a rest
without a separator. -/
theorem exists_rest_of_pieces (sep : Char) (cs : List Char) :
    ∃ rest, sep ∉ rest ∧
      cs = ((pieces sep cs).dropLast.flatMap fun piece => piece ++ [sep]) ++ rest := by
  have hne := pieces_ne_nil sep cs
  refine ⟨(pieces sep cs).getLast hne, not_mem_of_mem_pieces (List.getLast_mem hne), ?_⟩
  rw [← intercalate_append_last, List.dropLast_append_getLast, pieces_eq_splitOn]
  exact (List.intercalate_splitOn sep).symm

/-- The pieces of text that is made of parts with the separator behind each. -/
theorem pieces_flatMap_append_sep (sep : Char) (parts : List (List Char)) :
    pieces sep (parts.flatMap fun part => part ++ [sep]) = parts.flatMap (pieces sep) ++ [[]] := by
  induction parts with
  | nil => rfl
  | cons part parts ih =>
    rw [List.flatMap_cons, List.append_assoc, List.singleton_append, pieces_append_sep_cons, ih,
      List.flatMap_cons, List.append_assoc]

end Text

namespace Volume

/-! ## Joining, then splitting -/

/-- Names that were joined come back cut at their own colons. -/
theorem splitGridNames_joinGridNames_eq (names : List String) :
    splitGridNames (joinGridNames names) =
      names.flatMap fun name => (name.toList.splitOn nameEnd).map String.ofList := by
  have hpieces : Text.pieces nameEnd (joinGridNames names).toList =
      (names.flatMap fun name => name.toList.splitOn nameEnd) ++ [[]] := by
    have hparts := Text.pieces_flatMap_append_sep nameEnd (names.map String.toList)
    rw [List.flatMap_map, List.flatMap_map] at hparts
    rw [joinGridNames, String.toList_ofList, hparts]
    simp only [Text.pieces_eq_splitOn]
  rw [splitGridNames, hpieces, List.dropLast_concat, List.map_flatMap]

/-- A name that is read from a run of text has no colon in it. -/
theorem nameEnd_not_mem_of_mem_splitGridNames {raw name : String}
    (h : name ∈ splitGridNames raw) : nameEnd ∉ name.toList := by
  obtain ⟨piece, hpiece, rfl⟩ := List.mem_map.1 h
  rw [String.toList_ofList]
  exact Text.not_mem_of_mem_pieces (List.mem_of_mem_dropLast hpiece)

/-! ## Splitting, then joining -/

/-- Text that is made of names, each with a colon behind it: it is empty, or it ends with a
colon. -/
def IsEnded (text : List Char) : Prop := text = [] ∨ text.getLast? = some nameEnd

/-- The longest part at the front of a text that has a property. -/
structure IsLongestFront (P : List Char → Prop) (front text : List Char) : Prop where
  atFront : front <+: text
  holds : P front
  longest : ∀ other, other <+: text → P other → other.length ≤ front.length

/-- Names with their colons are ended. -/
theorem isEnded_flatMap (parts : List (List Char)) :
    IsEnded (parts.flatMap fun part => part ++ [nameEnd]) := by
  rcases List.eq_nil_or_concat parts with rfl | ⟨init, last, rfl⟩
  · exact .inl rfl
  · right
    simp

/-- What reaches beyond the last colon has no colon at its end. -/
theorem isLongestFront_append {front rest : List Char} (hfront : IsEnded front)
    (hrest : nameEnd ∉ rest) : IsLongestFront IsEnded front (front ++ rest) := by
  refine ⟨List.prefix_append front rest, hfront, fun other hother hended => ?_⟩
  by_contra hlong
  obtain ⟨beyond, rfl⟩ : front <+: other :=
    List.prefix_of_prefix_length_le (List.prefix_append front rest) hother (by omega)
  have hne : beyond ≠ [] := by
    rintro rfl
    simp at hlong
  rcases hended with hempty | hlast
  · exact hne (List.append_eq_nil_iff.1 hempty).2
  · rw [List.getLast?_append_of_ne_nil _ hne] at hlast
    have hbeyond : beyond <+: rest := (List.prefix_append_right_inj front).1 hother
    exact hrest (hbeyond.subset (List.mem_of_getLast? hlast))

/-- The names that were read, joined again, are the longest part at the front that is ended. -/
theorem isLongestFront_joinGridNames (raw : String) :
    IsLongestFront IsEnded (joinGridNames (splitGridNames raw)).toList raw.toList := by
  obtain ⟨rest, hrest, hraw⟩ := Text.exists_rest_of_pieces nameEnd raw.toList
  have hjoin : (joinGridNames (splitGridNames raw)).toList =
      (Text.pieces nameEnd raw.toList).dropLast.flatMap fun piece => piece ++ [nameEnd] := by
    rw [joinGridNames, splitGridNames, String.toList_ofList, List.flatMap_map]
    simp
  rw [hjoin]
  nth_rewrite 2 [hraw]
  exact isLongestFront_append (isEnded_flatMap _) hrest

/-- Text that is the longest part of itself. -/
theorem isLongestFront_self_iff {P : List Char → Prop} {front text : List Char}
    (h : IsLongestFront P front text) : front = text ↔ P text := by
  constructor
  · rintro rfl
    exact h.holds
  · intro htext
    exact h.atFront.eq_of_length_le (h.longest text (List.prefix_refl text) htext)

/-! ## Both directions -/

/-- **Names survive exactly if they can**, for all names and all runs of text.

* Names that are joined and split come back cut at their own colons, so they are the same names if
  and only if no colon is in any of them.
* Text that is split and joined comes back up to its last colon, as the longest part at its front
  that is empty or ends with a colon.  So it is the same text if and only if it is empty or ends
  with a colon. -/
theorem gridNames_roundTrip :
    (∀ names : List String,
      splitGridNames (joinGridNames names) =
        (names.flatMap fun name => (name.toList.splitOn nameEnd).map String.ofList) ∧
      (splitGridNames (joinGridNames names) = names ↔ ∀ name ∈ names, nameEnd ∉ name.toList)) ∧
    ∀ raw : String,
      IsLongestFront IsEnded (joinGridNames (splitGridNames raw)).toList raw.toList ∧
      (joinGridNames (splitGridNames raw) = raw ↔ IsEnded raw.toList) := by
  refine ⟨fun names => ⟨splitGridNames_joinGridNames_eq names, ?_⟩, fun raw => ?_⟩
  · constructor
    · intro hsame name hname
      rw [← hsame] at hname
      exact nameEnd_not_mem_of_mem_splitGridNames hname
    · exact splitGridNames_joinGridNames
  · have hfront := isLongestFront_joinGridNames raw
    refine ⟨hfront, ?_⟩
    rw [← isLongestFront_self_iff hfront, String.toList_inj]

/-- A colon inside of a name, an empty name, and text without a colon at its end. -/
example : splitGridNames (joinGridNames ["a:b", ""]) = ["a", "b", ""] ∧
    joinGridNames (splitGridNames "a::b") = "a::" := by
  decide

end Volume
end PostRun
