/-!
# Binary64 words

A number of the program is a 64-bit word in the binary64 format: a sign bit, an
exponent field of 11 bits and a fraction of 52 bits.  The words are kept as
words, so that a signed zero and the payload of a NaN survive storage, and so
that both orders below are plain statements about integers.

## Two orders

`Binary64.lt` is the numerical comparison: a NaN is related to nothing, and the
two zeros are equal.  `Binary64.totalKey` orders all words: negative NaNs first,
then the numbers ascending with `-0` before `+0`, then positive NaNs.  Sorting
uses the second, windows of time use the first; `totalKey_lt_of_lt` says that
the first never contradicts the second.
-/

namespace PostRun

/-- A word in the binary64 format. -/
structure Binary64 where
  bits : UInt64
  deriving DecidableEq

namespace Binary64

/-- The word for `+0`. -/
def zero : Binary64 := ⟨0⟩

instance : Inhabited Binary64 := ⟨zero⟩

/-- The word with nothing but the sign bit, as a number. -/
def signBit : Nat := 0x8000000000000000

/-- The lowest bit of the exponent field, which is the hidden bit of a significand. -/
def hiddenBit : Nat := 0x10000000000000

/-- Whether the sign bit is set. -/
def isNegative (x : Binary64) : Bool := signBit ≤ x.bits.toNat

/-- The exponent field and the fraction, read as one number: words of equal
sign compare as these numbers do. -/
def magnitude (x : Binary64) : Nat := x.bits.toNat % signBit

/-- The 11 bits of the exponent. -/
def exponentField (x : Binary64) : Nat := x.magnitude / hiddenBit

/-- The 52 bits of the fraction. -/
def fraction (x : Binary64) : Nat := x.magnitude % hiddenBit

/-- The magnitude of the two infinities. -/
def infiniteMagnitude : Nat := 2047 * hiddenBit

/-- Not a number: the exponent is all ones and the fraction is not zero. -/
def isNaN (x : Binary64) : Bool := infiniteMagnitude < x.magnitude

/-- Neither an infinity nor a NaN. -/
def isFinite (x : Binary64) : Bool := x.magnitude < infiniteMagnitude

/-- The integral significand of a finite word, the hidden bit included. -/
def significand (x : Binary64) : Nat :=
  if x.exponentField = 0 then x.fraction else hiddenBit + x.fraction

/-- The power of two that scales the significand of a finite word. -/
def power (x : Binary64) : Int := (max x.exponentField 1 : Nat) - 1075

/-- The words but for NaNs as integers in numerical order, both zeros as `0`. -/
def numericKey (x : Binary64) : Int := if x.isNegative then -(x.magnitude : Int) else x.magnitude

/-- All words as integers in the total order. -/
def totalKey (x : Binary64) : Int :=
  if x.isNegative then -1 - (x.magnitude : Int) else x.magnitude

/-- The numerical comparison; a NaN is below nothing and above nothing. -/
def lt (x y : Binary64) : Bool :=
  !x.isNaN && !y.isNaN && decide (x.numericKey < y.numericKey)

instance : LT Binary64 := ⟨fun x y => x.lt y = true⟩

instance : DecidableLT Binary64 := fun x y => inferInstanceAs (Decidable (x.lt y = true))

/-- The total order on words. -/
def totalLe (x y : Binary64) : Bool := x.totalKey ≤ y.totalKey

theorem lt_iff {x y : Binary64} :
    x < y ↔ x.isNaN = false ∧ y.isNaN = false ∧ x.numericKey < y.numericKey := by
  change x.lt y = true ↔ _
  simp [lt, and_assoc]

/-- A strict numerical inequality holds in the total order too. -/
theorem totalKey_lt_of_lt {x y : Binary64} (h : x < y) : x.totalKey < y.totalKey := by
  have h' := (lt_iff.1 h).2.2
  unfold numericKey at h'
  unfold totalKey
  split at h' <;> split at h' <;> simp_all <;> omega

/-- The total order tells all words apart. -/
theorem eq_of_totalKey_eq {x y : Binary64} (h : x.totalKey = y.totalKey) : x = y := by
  have hx := x.bits.toNat_lt
  have hy := y.bits.toNat_lt
  have hbits : x.bits.toNat = y.bits.toNat := by
    unfold totalKey at h
    split at h <;> split at h <;> simp only [isNegative, decide_eq_true_eq] at * <;>
      simp only [magnitude, signBit] at * <;> omega
  cases x
  cases y
  exact congrArg mk (UInt64.toNat_inj.1 hbits)

/-- What is not below a word in the total order is not below it numerically. -/
theorem numericKey_le_of_totalLe {x y : Binary64} (h : x.totalLe y = true) :
    x.numericKey ≤ y.numericKey := by
  simp only [totalLe, decide_eq_true_eq] at h
  unfold totalKey at h
  unfold numericKey
  split at h <;> split at h <;> simp_all <;> omega

/-- A word above a number stays above it when it grows in the total order, up to the NaNs. -/
theorem lt_of_lt_of_totalLe {x y z : Binary64} (h : x < y) (hle : y.totalLe z = true)
    (hz : z.isNaN = false) : x < z := by
  obtain ⟨hx, -, hkey⟩ := lt_iff.1 h
  exact lt_iff.2 ⟨hx, hz, Int.lt_of_lt_of_le hkey (numericKey_le_of_totalLe hle)⟩

theorem totalLe_refl (x : Binary64) : x.totalLe x = true := by simp [totalLe]

theorem totalLe_total (x y : Binary64) : (x.totalLe y || y.totalLe x) = true := by
  simp only [totalLe, Bool.or_eq_true, decide_eq_true_eq]
  omega

theorem totalLe_trans {x y z : Binary64} (h : x.totalLe y = true) (h' : y.totalLe z = true) :
    x.totalLe z = true := by
  simp only [totalLe, decide_eq_true_eq] at h h' ⊢
  omega

end Binary64
end PostRun
