import PostRun.Text.Pieces

/-!
# Numbers in a text

A number is written with decimal digits and nothing else.  So whoever reads a text knows where a
number ends: at the first character that is no digit.

`number?` reads a number that way, and only as it is written: it refuses an empty row of digits and
zeros in front.  So a text has a number at its front in one way or in none
(`number?_eq_some_iff`), and what stands behind it takes no part in that, as long as it does not
begin with a digit.
-/

namespace PostRun
namespace Text

/-- A text does not begin with a digit. -/
def EndsNumber (rest : List Char) : Prop := ∀ c ∈ rest.head?, c.isDigit = false

theorem endsNumber_cons {c : Char} (hc : c.isDigit = false) (rest : List Char) :
    EndsNumber (c :: rest) := by
  intro d hd
  cases hd
  exact hc

/-- A number is written with digits. -/
theorem isDigit_of_mem_toString {n : Nat} {c : Char} (h : c ∈ (toString n).toList) :
    c.isDigit := by
  rw [Nat.toString_eq_repr, Nat.toList_repr] at h
  exact Nat.isDigit_of_mem_toDigits (by decide) (Nat.le_refl 10) h

/-- What is no digit does not occur in a number. -/
theorem not_mem_toString {c : Char} (hc : c.isDigit = false) (n : Nat) :
    c ∉ (toString n).toList := by
  intro h
  rw [isDigit_of_mem_toString h] at hc
  cases hc

/-- The digits of a number say which one it is. -/
theorem ofDigitChars_toString (n : Nat) : Nat.ofDigitChars 10 (toString n).toList 0 = n := by
  rw [Nat.toString_eq_repr, Nat.toList_repr, Nat.ofDigitChars_ten_toDigits]

/-- The digits at the front of a text, and what follows them. -/
theorem takeWhile_isDigit_append {ds rest : List Char} (hds : ∀ c ∈ ds, c.isDigit)
    (hrest : EndsNumber rest) :
    (ds ++ rest).takeWhile Char.isDigit = ds ∧ (ds ++ rest).dropWhile Char.isDigit = rest := by
  rw [List.takeWhile_append_of_pos hds, List.dropWhile_append_of_pos hds]
  cases rest with
  | nil => simp
  | cons c rest => simp [hrest c rfl]

theorem endsNumber_dropWhile (cs : List Char) : EndsNumber (cs.dropWhile Char.isDigit) := by
  intro c hc
  have hhead := List.head?_dropWhile_not Char.isDigit cs
  rw [Option.mem_def] at hc
  rwa [hc] at hhead

/-- The number at the front of a text, and what follows it. -/
def number? (cs : List Char) : Option (Nat × List Char) :=
  let n := Nat.ofDigitChars 10 (cs.takeWhile Char.isDigit) 0
  if (toString n).toList = cs.takeWhile Char.isDigit then some (n, cs.dropWhile Char.isDigit)
  else none

/-- **A number ends where the digits end.** -/
theorem number?_eq_some_iff {cs rest : List Char} {n : Nat} :
    number? cs = some (n, rest) ↔ cs = (toString n).toList ++ rest ∧ EndsNumber rest := by
  constructor
  · intro h
    simp only [number?] at h
    split at h
    next hwritten =>
      obtain ⟨rfl, rfl⟩ := Prod.mk.inj (Option.some.inj h)
      rw [hwritten]
      exact ⟨List.takeWhile_append_dropWhile.symm, endsNumber_dropWhile cs⟩
    next => cases h
  · rintro ⟨rfl, hrest⟩
    obtain ⟨hdigits, hbehind⟩ := takeWhile_isDigit_append
      (fun c => isDigit_of_mem_toString (n := n)) hrest
    simp only [number?, hdigits, hbehind, ofDigitChars_toString, if_true]

end Text
end PostRun
