import PostRun.Proofs.Number.Nearest
import PostRun.Proofs.Number.Reading

/-!
# What a time stamp recovers

A time stamp has fifteen digits, and a word may need seventeen.  So a word is not always read back
from its time stamp.  `Binary64.read?_timeStamp_iff` says when it is: if it is the word that some
decimal of at most fifteen digits is read as.

One direction needs no more than that the stamp is such a decimal.  The other one is about a word
that is read from a decimal with few digits, while its stamp may be another such decimal.  The stamp
is the nearest of all of them (`Decimal.RoundsTo.abs_sub_le_abs_sub`), so it is no farther away than
the one that the word is read from.

* On the same side of the word it is read as the word as well.
* Away from zero the words are not closer together, so it is read as the word on that side.
* Towards zero they may be, namely below a power of two.  But then the stamp and the other decimal
  are a unit of the last digit apart at least (`Decimal.RoundsTo.unit_le`), and that is more than
  there is room for around a word (`Decimal.RoundsTo.power_lt`), except where words have fewer
  binary digits.  There they are equally far apart on both sides.
-/

namespace PostRun
namespace Decimal

variable {x : Binary64}

/-- Rounding a number to `n + 1` digits finds the nearest number of at most so many digits. -/
theorem RoundsTo.abs_sub_le_abs_sub {n : ℕ} {r t : ℚ} (h : RoundsTo n r t) {m : ℕ} {f : ℤ}
    (hm : m < 10 ^ (n + 1)) : |r - t| ≤ |r - m * 10 ^ f| := by
  cases h with
  | zero => rw [sub_zero, abs_zero]; exact abs_nonneg _
  | @digits _ e d hlow hhigh hd =>
    by_cases heq : (m : ℚ) * 10 ^ f = d * 10 ^ (e - n)
    · rw [heq]
    · have hgrid : e - n ≤ f ∨ (10 : ℚ) ^ (e - n + n) ≤ r := .inr (by rwa [sub_add_cancel])
      have hnear := NearestEven.near_of_digits (b := 10) (k := n) (by decide) (r := r) (e := e - n)
        (n := d) (by exact_mod_cast hd) hm (by exact_mod_cast hgrid) (by exact_mod_cast heq)
      have hle : |r - d * ((10 : ℕ) : ℚ) ^ (e - n)| ≤ |r - m * ((10 : ℕ) : ℚ) ^ f| :=
        hnear.elim le_of_lt fun h => h.1.le
      exact_mod_cast hle

/-- A number is rounded downwards although another one with as few digits lies above it.  Then the
two are a unit of the last digit apart at least. -/
theorem RoundsTo.unit_le {n : ℕ} {r t : ℚ} (h : RoundsTo n r t) {m : ℕ} {f : ℤ}
    (hm : m < 10 ^ (n + 1)) (ht : t < r) (hr : r < m * 10 ^ f) :
    r < 10 ^ (n + 1) * (m * 10 ^ f - t) := by
  cases h with
  | zero => exact absurd ht (lt_irrefl 0)
  | @digits _ e d hlow hhigh hd =>
    have hgrid : e - n ≤ f := by
      refine not_lt.1 fun hfine => ?_
      have hten : 1 < 10 := by decide
      have hbelow : (m : ℚ) * 10 ^ f < 10 ^ (e - n + n) := mul_zpow_lt hten hm hfine
      rw [sub_add_cancel] at hbelow
      linarith
    obtain ⟨i, rfl⟩ := Int.exists_add_of_le hgrid
    have hunit := ten_zpow_pos (e - n)
    rw [ten_zpow_add_natCast, ← mul_assoc, ← Nat.cast_mul] at hr ⊢
    have hless : d + 1 ≤ m * 10 ^ i := by
      have := ht.trans hr
      exact_mod_cast (mul_lt_mul_iff_left₀ hunit).1 this
    have hapart :
        (10 : ℚ) ^ (e - n) ≤ ((m * 10 ^ i : ℕ) : ℚ) * 10 ^ (e - n) - d * 10 ^ (e - n) := by
      have hcast : (d : ℚ) + 1 ≤ ((m * 10 ^ i : ℕ) : ℚ) := by exact_mod_cast hless
      rw [← sub_mul]
      exact le_mul_of_one_le_left hunit.le (by linarith)
    calc r < 10 ^ (e + 1) := hhigh
      _ = ((10 ^ (n + 1) : ℕ) : ℚ) * 10 ^ (e - n) := ten_zpow_succ_eq_mul e n
      _ ≤ 10 ^ (n + 1) * (((m * 10 ^ i : ℕ) : ℚ) * 10 ^ (e - n) - d * 10 ^ (e - n)) := by
          push_cast at hapart ⊢
          exact mul_le_mul_of_nonneg_left hapart (by positivity)

/-- If it is a word that is rounded, and not one of the few with a short significand, then the two
are more than a unit in its last place apart. -/
theorem RoundsTo.power_lt {n : ℕ} {t : ℚ} (h : RoundsTo n x.absRat t)
    (hbits : 10 ^ (n + 1) ≤ x.significand) {m : ℕ} {f : ℤ} (hm : m < 10 ^ (n + 1))
    (ht : t < x.absRat) (hx : x.absRat < m * 10 ^ f) : 2 ^ x.power < m * 10 ^ f - t := by
  have hfew : (10 : ℚ) ^ (n + 1) ≤ x.significand := by exact_mod_cast hbits
  refine not_le.1 fun hnarrow => absurd (h.unit_le hm ht hx) (not_lt.2 ?_)
  calc 10 ^ (n + 1) * (m * 10 ^ f - t)
      ≤ 10 ^ (n + 1) * 2 ^ x.power := mul_le_mul_of_nonneg_left hnarrow (by positivity)
    _ ≤ x.significand * 2 ^ x.power := mul_le_mul_of_nonneg_right hfew (zpow_pos two_pos _).le

/-- **A word that is nearest to some decimal with few digits** is nearest to its own rounded
decimal.  The cases are the sides of the word on which the rounded decimal and the other one lie. -/
theorem isNearest_rounded {n : ℕ} (hn : 10 ^ (n + 1) ≤ Binary64.hiddenBit) (hx : x.isFinite)
    {d : Decimal} (hd : d.digits < 10 ^ (n + 1)) (h : Binary64.IsNearest d.absRat x) :
    Binary64.IsNearest (rounded n x).absRat x := by
  have hround := roundsTo_rounded n x
  set t := (rounded n x).absRat
  have hcloser : |x.absRat - t| ≤ |x.absRat - d.absRat| := hround.abs_sub_le_abs_sub hd
  rcases le_total t x.absRat with htx | hxt <;> rcases le_total d.absRat x.absRat with hdx | hxd
  · rw [abs_of_nonneg (sub_nonneg.2 htx), abs_of_nonneg (sub_nonneg.2 hdx)] at hcloser
    exact h.of_between (.inr ⟨by linarith, htx⟩)
  · rw [abs_of_nonneg (sub_nonneg.2 htx), abs_of_nonpos (sub_nonpos.2 hxd)] at hcloser
    rcases htx.eq_or_lt with htie | htx
    · exact h.of_between (.inl ⟨htie.ge, htie.le.trans hxd⟩)
    by_cases hscale : x.scale = 1
    · exact (h.reflect_down hx hscale hxd).of_between (.inr ⟨by linarith, htx.le⟩)
    · have hone : 1 ≤ x.scale := le_max_right _ _
      have hbit := Binary64.hiddenBit_le_significand (lt_of_le_of_ne hone (Ne.symm hscale))
      have habove : x.absRat < d.absRat := by linarith
      have hwide : 2 ^ x.power < d.absRat - t := hround.power_lt (hn.trans hbit) hd htx habove
      have hgap := h.two_mul_sub_le hx hxd
      linarith
  · rw [abs_of_nonpos (sub_nonpos.2 hxt), abs_of_nonneg (sub_nonneg.2 hdx)] at hcloser
    exact (h.reflect_up d.absRat_nonneg hdx).of_between (.inl ⟨hxt, by linarith⟩)
  · rw [abs_of_nonpos (sub_nonpos.2 hxt), abs_of_nonpos (sub_nonpos.2 hxd)] at hcloser
    exact h.of_between (.inl ⟨hxt, by linarith⟩)

end Decimal

namespace Binary64

variable {x y : Binary64}

/-- Reads a number: the text is read as a decimal and the decimal as the word nearest to it. -/
def read? (cs : List Char) : Option Binary64 := (Decimal.read? cs).map Decimal.nearestWord

/-- What a time stamp is read as: the word nearest to the rounded decimal. -/
theorem read?_timeStamp_eq (h : x.isFinite) :
    read? x.timeStamp.toList = some (Decimal.rounded 14 x).nearestWord := by
  rw [read?, read?_timeStamp h, Option.map_some]

-- The time stamp of the largest finite word is read as infinite.
example : read? (timeStamp ⟨0x7FEFFFFFFFFFFFFF⟩).toList = some ⟨0x7FF0000000000000⟩ := by
  decide +kernel

/-- The rounded decimal has at most fifteen digits. -/
theorem digits_rounded_lt (x : Binary64) : (Decimal.rounded 14 x).digits < 10 ^ 15 := by
  by_cases hzero : x.significand = 0
  · rw [Decimal.rounded_of_significand_eq_zero 14 hzero]
    exact Nat.pow_pos (by decide)
  · exact (Decimal.digits_rounded_bounds 14 hzero).2

/-- Some decimal of at most fifteen digits is read as the word. -/
def HasShortDecimal (x : Binary64) : Prop := ∃ d : Decimal, d.digits < 10 ^ 15 ∧ d.nearestWord = x

/-- **A word is recovered from its time stamp** if it can be recovered from any fifteen digits. -/
theorem read?_timeStamp_iff (h : x.isFinite) :
    read? x.timeStamp.toList = some x ↔ x.HasShortDecimal := by
  rw [read?_timeStamp_eq h, Option.some.injEq]
  constructor
  · exact fun hstamp => ⟨_, digits_rounded_lt x, hstamp⟩
  · rintro ⟨d, hdigits, hd⟩
    obtain ⟨-, hnearest⟩ := (Decimal.nearestWord_eq_iff d).1 hd
    refine (Decimal.nearestWord_eq_iff _).2 ⟨(Decimal.negative_rounded 14 x).symm, ?_⟩
    exact Decimal.isNearest_rounded (by decide) h hdigits hnearest

/-- Words have the same time stamp if they are rounded to the same decimal. -/
theorem timeStamp_eq_iff (hx : x.isFinite) (hy : y.isFinite) :
    x.timeStamp = y.timeStamp ↔ Decimal.rounded 14 x = Decimal.rounded 14 y := by
  constructor
  · intro h
    have hread := read?_timeStamp hx
    rw [h, read?_timeStamp hy, Option.some.injEq] at hread
    exact hread.symm
  · intro h
    rw [timeStamp, timeStamp, if_pos hx, if_pos hy, h]

/-- The form of a time stamp: perhaps a minus sign, one digit, a point, fourteen digits, and an
exponent with a sign and at least two digits. -/
def HasTimeForm (negative : Bool) (cs : List Char) : Prop :=
  ∃ (first : Char) (places : List Char) (sign : Char) (exponent : List Char),
    cs = Decimal.signText negative ++ first :: '.' :: places ++ 'e' :: sign :: exponent ∧
    first.isDigit ∧ places.length = 14 ∧ (∀ c ∈ places, c.isDigit) ∧
    (sign = '-' ∨ sign = '+') ∧ 2 ≤ exponent.length ∧ ∀ c ∈ exponent, c.isDigit

/-- An exponent is written with its sign and at least two digits. -/
theorem exists_paddedExponentText (e : ℤ) :
    ∃ sign exponent, Decimal.paddedExponentText e = sign :: exponent ∧
      (sign = '-' ∨ sign = '+') ∧ 2 ≤ exponent.length ∧ ∀ c ∈ exponent, c.isDigit := by
  refine ⟨_, _, rfl, ?_, ?_, ?_⟩
  · split_ifs <;> simp
  · have hne := List.length_pos_iff.2 (Decimal.characters_ne_nil e.natAbs)
    split_ifs with hshort
    · rw [List.length_cons]
      omega
    · omega
  · have hdigits : ∀ c ∈ Decimal.characters e.natAbs, c.isDigit := fun c =>
      Decimal.isDigit_of_mem_characters
    split_ifs
    · exact List.forall_mem_cons.2 ⟨by decide, hdigits⟩
    · exact hdigits

theorem hasTimeForm_timeStamp (h : x.isFinite) : HasTimeForm x.isNegative x.timeStamp.toList := by
  obtain ⟨first, others, hpadded, hlength, hdigits, -⟩ := exists_paddedDigits_rounded x
  obtain ⟨sign, exponent, hexponent, hform⟩ :=
    exists_paddedExponentText (Decimal.rounded 14 x).leadingExponent
  obtain ⟨hfirst, hothers⟩ := List.forall_mem_cons.1 hdigits
  have hmantissa : Decimal.mantissa (first :: others) = first :: '.' :: others := by
    obtain ⟨second, rest, rfl⟩ := List.exists_cons_of_length_eq_add_one hlength
    rfl
  refine ⟨first, others, sign, exponent, ?_, hfirst, hlength, hothers, hform⟩
  rw [timeStamp, if_pos h, String.toList_ofList]
  simp only [hpadded, hmantissa, hexponent, Decimal.negative_rounded]

/-- **What a time stamp recovers.**  Every finite word has a time stamp of the form `%1.14e`, which
is read as some word.  That is the word itself if, and only if, some decimal of at most fifteen
digits is read as it; words of which this is true are told apart by their time stamps.  In general
two finite words have the same time stamp if they are the same when rounded to fifteen digits. -/
theorem timeStamp_recovers_iff (h : x.isFinite) :
    HasTimeForm x.isNegative x.timeStamp.toList ∧
    (∃ y, read? x.timeStamp.toList = some y) ∧
    (read? x.timeStamp.toList = some x ↔ x.HasShortDecimal) ∧
    ∀ y : Binary64, y.isFinite →
      (x.timeStamp = y.timeStamp ↔ Decimal.rounded 14 x = Decimal.rounded 14 y) ∧
      (x.HasShortDecimal → y.HasShortDecimal → x.timeStamp = y.timeStamp → x = y) := by
  refine ⟨hasTimeForm_timeStamp h, ⟨_, read?_timeStamp_eq h⟩, read?_timeStamp_iff h,
    fun y hy => ⟨timeStamp_eq_iff h hy, fun hxshort hyshort hstamp => ?_⟩⟩
  have hx := (read?_timeStamp_iff h).2 hxshort
  have hy := (read?_timeStamp_iff hy).2 hyshort
  rw [hstamp, hy] at hx
  exact (Option.some.inj hx).symm

/-- The word that `0.3` is read as. -/
def threeTenths : Binary64 := ⟨0x3FD3333333333333⟩

/-- The word above it, `0.30000000000000004`: the sum of a tenth and two tenths. -/
def tenthsSum : Binary64 := ⟨0x3FD3333333333334⟩

/-- The two words have one time stamp, and it is read as the first of them; so no decimal of fifteen
digits is read as the second one. -/
theorem timeStamp_recovers_iff_tenthsSum :
    threeTenths.isFinite ∧ tenthsSum.isFinite ∧ tenthsSum ≠ threeTenths ∧
    threeTenths.timeStamp = "3.00000000000000e-01" ∧
    tenthsSum.timeStamp = threeTenths.timeStamp ∧
    threeTenths.HasShortDecimal ∧ ¬ tenthsSum.HasShortDecimal ∧
    read? tenthsSum.timeStamp.toList = some threeTenths := by
  have hfinite : threeTenths.isFinite := by decide
  have hfinite' : tenthsSum.isFinite := by decide
  have hne : tenthsSum ≠ threeTenths := by decide
  have hrounded : Decimal.rounded 14 tenthsSum = Decimal.rounded 14 threeTenths := by
    decide +kernel
  have hshort : threeTenths.HasShortDecimal :=
    ⟨⟨false, 3, -1⟩, by decide, by decide +kernel⟩
  obtain ⟨-, -, hrecovered, -⟩ := timeStamp_recovers_iff hfinite
  obtain ⟨-, -, -, hothers⟩ := timeStamp_recovers_iff hfinite'
  obtain ⟨hsame, hapart⟩ := hothers threeTenths hfinite
  have hstamp := hsame.2 hrounded
  refine ⟨hfinite, hfinite', hne, by decide +kernel, hstamp, hshort,
    fun hsum => hne (hapart hsum hshort hstamp), ?_⟩
  rw [hstamp]
  exact hrecovered.2 hshort

end Binary64
end PostRun
