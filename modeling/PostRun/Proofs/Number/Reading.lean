import PostRun.Number.Notation
import PostRun.Proofs.Number.Rounding
import PostRun.Proofs.Text.Digits

/-!
# Reading written decimals

A decimal is read as it is commonly written: a sign, digits with a point among them, and an exponent
with a sign of its own.  Leading zeros of an exponent do not count, and the places behind the point
are taken off the exponent, so that what is read is again a whole number of digits and a power of
ten.

The digits end where they are meant to, because neither the point nor the letter of the exponent is
a digit (`readUnsigned?_mantissa`).  A time stamp has one digit before the point and fourteen behind
it, also for zero, whose digits are written out.  So it is read as the very decimal that it was
written from (`Binary64.read?_timeStamp`).
-/

namespace PostRun
namespace Decimal

/-! ## A reader -/

/-- The number that digits stand for. -/
def valueOfDigits (ds : List Char) : ℕ := Nat.ofDigitChars 10 ds 0

/-- Reads digits and nothing else. -/
def readDigits? (ds : List Char) : Option ℕ :=
  if ds ≠ [] ∧ ds.all Char.isDigit then some (valueOfDigits ds) else none

/-- Reads an exponent: a sign, which may be left out, and digits. -/
def readExponent? : List Char → Option ℤ
  | '-' :: ds => (readDigits? ds).map fun n : ℕ => -(n : ℤ)
  | '+' :: ds => (readDigits? ds).map fun n : ℕ => (n : ℤ)
  | ds => (readDigits? ds).map fun n : ℕ => (n : ℤ)

/-- Reads what stands behind the digits: places behind a point and an exponent, both of which may be
left out. -/
def readBehind? (whole : List Char) : List Char → Option (ℕ × ℤ)
  | [] => some (valueOfDigits whole, 0)
  | 'e' :: exponent => (readExponent? exponent).map fun e => (valueOfDigits whole, e)
  | '.' :: places =>
      let fraction := places.takeWhile Char.isDigit
      match places.dropWhile Char.isDigit with
      | [] => some (valueOfDigits (whole ++ fraction), -fraction.length)
      | 'e' :: exponent => (readExponent? exponent).map fun e =>
          (valueOfDigits (whole ++ fraction), e - fraction.length)
      | _ => none
  | _ => none

/-- Reads a number without a sign. -/
def readUnsigned? (cs : List Char) : Option (ℕ × ℤ) :=
  if cs.takeWhile Char.isDigit = [] then none
  else readBehind? (cs.takeWhile Char.isDigit) (cs.dropWhile Char.isDigit)

/-- **Reads a decimal** as it is commonly written. -/
def read? : List Char → Option Decimal
  | '-' :: cs => (readUnsigned? cs).map fun d => ⟨true, d.1, d.2⟩
  | cs => (readUnsigned? cs).map fun d => ⟨false, d.1, d.2⟩

example : read? "-12.50e-3".toList = some ⟨true, 1250, -5⟩ := by decide

/-! ## Written numbers are read -/

theorem isDigit_of_mem_characters {n : ℕ} {c : Char} (h : c ∈ characters n) : c.isDigit :=
  Nat.isDigit_of_mem_toDigits (by decide) (Nat.le_refl 10) h

theorem characters_ne_nil (n : ℕ) : characters n ≠ [] := Nat.toDigits_ne_nil

@[simp] theorem valueOfDigits_characters (n : ℕ) : valueOfDigits (characters n) = n :=
  Nat.ofDigitChars_ten_toDigits

/-- A zero in front of digits does not count. -/
@[simp] theorem valueOfDigits_zero_cons (ds : List Char) :
    valueOfDigits ('0' :: ds) = valueOfDigits ds := by
  rw [valueOfDigits, Nat.ofDigitChars_cons]
  rfl

theorem readDigits?_eq_some {ds : List Char} (hne : ds ≠ []) (hds : ∀ c ∈ ds, c.isDigit) :
    readDigits? ds = some (valueOfDigits ds) := by
  rw [readDigits?, if_pos ⟨hne, List.all_eq_true.2 hds⟩]

/-- **An exponent is read back.** -/
theorem readExponent?_paddedExponentText (e : ℤ) :
    readExponent? (paddedExponentText e) = some e := by
  have hpadded : readDigits? (if (characters e.natAbs).length < 2 then '0' :: characters e.natAbs
      else characters e.natAbs) = some e.natAbs := by
    split_ifs
    · rw [readDigits?_eq_some (List.cons_ne_nil _ _), valueOfDigits_zero_cons,
        valueOfDigits_characters]
      exact List.forall_mem_cons.2 ⟨by decide, fun c => isDigit_of_mem_characters⟩
    · rw [readDigits?_eq_some (characters_ne_nil _) fun c => isDigit_of_mem_characters,
        valueOfDigits_characters]
  rw [paddedExponentText]
  by_cases hneg : e < 0
  · rw [if_pos hneg, readExponent?, hpadded, Option.map_some, Option.some.injEq]
    omega
  · rw [if_neg hneg, readExponent?, hpadded, Option.map_some, Option.some.injEq]
    omega

/-- Digits with a point after the first one are read, with as many places as follow it. -/
theorem readUnsigned?_mantissa {first : Char} {others : List Char} {e : ℤ} (hne : others ≠ [])
    (hdigits : ∀ c ∈ first :: others, c.isDigit) :
    readUnsigned? (mantissa (first :: others) ++ 'e' :: paddedExponentText e) =
      some (valueOfDigits (first :: others), e - others.length) := by
  obtain ⟨hfirst, hothers⟩ := List.forall_mem_cons.1 hdigits
  have hpoint : Text.EndsNumber ('.' :: (others ++ 'e' :: paddedExponentText e)) :=
    Text.endsNumber_cons rfl _
  have hletter : Text.EndsNumber ('e' :: paddedExponentText e) := Text.endsNumber_cons rfl _
  have hsingle : ∀ c ∈ [first], c.isDigit := by simpa using hfirst
  obtain ⟨hwhole, hbehind⟩ := Text.takeWhile_isDigit_append hsingle hpoint
  obtain ⟨hplaces, hexponent⟩ := Text.takeWhile_isDigit_append hothers hletter
  obtain ⟨second, rest, rfl⟩ := List.exists_cons_of_ne_nil hne
  have htext : mantissa (first :: second :: rest) ++ 'e' :: paddedExponentText e =
      [first] ++ '.' :: (second :: rest ++ 'e' :: paddedExponentText e) := rfl
  rw [htext, readUnsigned?, hwhole, hbehind, if_neg (List.cons_ne_nil _ _), readBehind?, hplaces,
    hexponent]
  simp only [readExponent?_paddedExponentText]
  rfl

/-- A sign in front of a digit is read. -/
theorem read?_signText_append {cs : List Char} {c : Char} (hc : c.isDigit) (hcs : cs.head? = some c)
    (negative : Bool) :
    read? (signText negative ++ cs) = (readUnsigned? cs).map fun d => ⟨negative, d.1, d.2⟩ := by
  cases negative with
  | true => rfl
  | false =>
    obtain ⟨rest, rfl⟩ := List.head?_eq_some_iff.1 hcs
    have hsign : c ≠ '-' := by
      rintro rfl
      exact absurd hc (by decide)
    rw [signText, if_neg (by decide), List.nil_append, read?]
    simpa using hsign

end Decimal

namespace Binary64

/-- The digits of a time stamp: one before the point and fourteen behind it. -/
theorem exists_paddedDigits_rounded (x : Binary64) :
    ∃ first others, paddedDigits 14 (Decimal.rounded 14 x).digits = first :: others ∧
      others.length = 14 ∧ (∀ c ∈ first :: others, c.isDigit) ∧
      Decimal.valueOfDigits (first :: others) = (Decimal.rounded 14 x).digits ∧
      (Decimal.rounded 14 x).leadingExponent - 14 = (Decimal.rounded 14 x).exponent := by
  by_cases hzero : x.significand = 0
  · rw [Decimal.rounded_of_significand_eq_zero 14 hzero]
    refine ⟨'0', List.replicate 14 '0', rfl, rfl, ?_, rfl, rfl⟩
    intro c hc
    rw [← List.replicate_succ] at hc
    rw [List.eq_of_mem_replicate hc]
    rfl
  · obtain ⟨hlow, hhigh⟩ := Decimal.digits_rounded_bounds 14 hzero
    set d := Decimal.rounded 14 x with hd
    have hne : d.digits ≠ 0 := by omega
    have hlength : (Decimal.characters d.digits).length = 14 + 1 :=
      Decimal.Fraction.digitCount_eq hlow hhigh
    obtain ⟨first, others, hdigits⟩ := List.exists_cons_of_length_eq_add_one hlength
    rw [hdigits, List.length_cons] at hlength
    refine ⟨first, others, ?_, by omega, ?_, ?_, ?_⟩
    · rw [paddedDigits, if_neg hne, hdigits]
    · rw [← hdigits]
      exact fun c => Decimal.isDigit_of_mem_characters
    · rw [← hdigits, Decimal.valueOfDigits_characters]
    · rw [Decimal.leadingExponent, if_neg hne, hdigits, List.length_cons]
      omega

/-- **A time stamp is read as the rounded decimal** that it was written from. -/
theorem read?_timeStamp {x : Binary64} (h : x.isFinite) :
    Decimal.read? x.timeStamp.toList = some (Decimal.rounded 14 x) := by
  obtain ⟨first, others, hpadded, hlength, hdigits, hvalue, hexponent⟩ :=
    exists_paddedDigits_rounded x
  have hne : others ≠ [] := List.ne_nil_of_length_eq_add_one hlength
  have hhead : (Decimal.mantissa (first :: others) ++
      'e' :: Decimal.paddedExponentText (Decimal.rounded 14 x).leadingExponent).head? =
        some first := by
    obtain ⟨second, rest, rfl⟩ := List.exists_cons_of_ne_nil hne
    rfl
  rw [timeStamp, if_pos h, String.toList_ofList]
  simp only [hpadded, List.append_assoc]
  rw [Decimal.read?_signText_append (hdigits first List.mem_cons_self) hhead,
    Decimal.readUnsigned?_mantissa hne hdigits, hvalue, hlength, Option.map_some]
  exact congrArg some (congrArg (Decimal.mk _ _) hexponent)

end Binary64
end PostRun
