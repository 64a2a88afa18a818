import Mathlib.Data.Int.Log
import PostRun.Proofs.Number.Rounding

/-!
# The nearest word

A decimal is read as the word nearest to it, the even one of two.  Nothing is lost by leaving signs
out, and then the words are the numbers `Binary64.absRat` in the order of their magnitudes.

* `Binary64.IsNearest`: what it means to be nearest.  The infinity stands for the first number that
  is too large, `2 ^ 1024`, so a number is read as infinite from the middle between that and the
  largest finite word on.
* `Binary64.nearestMagnitude`: how the nearest word is found.  The number is rounded to a natural
  number of units in its last place; if that makes one binary digit more, the carry moves into the
  exponent.
* `Decimal.nearestWord_eq_iff`: what is found is the nearest word, and the only one.

That rounding finds the nearest word is not evident where a smaller word is on a finer grid; but it
has no more digits, so it is not nearer (`Decimal.NearestEven.near_of_digits`).

## Moving the number

Three lemmas say when another number has the same nearest word: between the number and the word
(`IsNearest.of_between`); at the mirror image beyond the word, if that is away from zero
(`IsNearest.reflect_up`), since the words are not closer together there; and at the mirror image
towards zero for the smallest exponent only (`IsNearest.reflect_down`).
-/

namespace PostRun
namespace Binary64

variable {x y : Binary64} {r t : ℚ}

/-! ## Words by magnitude -/

/-- The word with a sign and a magnitude. -/
def ofMagnitude (negative : Bool) (m : ℕ) : Binary64 :=
  ⟨UInt64.ofNat ((if negative then signBit else 0) + m)⟩

theorem toNat_bits_ofMagnitude (negative : Bool) {m : ℕ} (h : m < signBit) :
    (ofMagnitude negative m).bits.toNat = (if negative then signBit else 0) + m := by
  have hbound : (if negative then signBit else 0) + m < 2 ^ 64 := by
    unfold signBit at h ⊢
    split_ifs <;> omega
  exact UInt64.toNat_ofNat_of_lt' hbound

theorem isNegative_ofMagnitude (negative : Bool) {m : ℕ} (h : m < signBit) :
    (ofMagnitude negative m).isNegative = negative := by
  rw [isNegative, toNat_bits_ofMagnitude negative h]
  cases negative with
  | true => simp
  | false => simpa using h

theorem magnitude_ofMagnitude (negative : Bool) {m : ℕ} (h : m < signBit) :
    (ofMagnitude negative m).magnitude = m := by
  rw [magnitude, toNat_bits_ofMagnitude negative h]
  cases negative with
  | true => rw [if_pos rfl, Nat.add_mod_left, Nat.mod_eq_of_lt h]
  | false => rw [if_neg (by decide), Nat.zero_add, Nat.mod_eq_of_lt h]

theorem magnitude_lt (x : Binary64) : x.magnitude < signBit := Nat.mod_lt _ (by decide)

/-- A word is known by its sign and its magnitude. -/
theorem eq_of_magnitude_eq (hsign : x.isNegative = y.isNegative)
    (h : x.magnitude = y.magnitude) : x = y :=
  eq_of_totalKey_eq (by rw [totalKey, totalKey, hsign, h])

theorem isNaN_eq_false_iff : x.isNaN = false ↔ x.magnitude ≤ infiniteMagnitude := by
  rw [isNaN, decide_eq_false_iff_not, Nat.not_lt]

/-- Every magnitude up to that of the infinity is that of a word. -/
theorem exists_magnitude_eq {m : ℕ} (h : m ≤ infiniteMagnitude) :
    ∃ z : Binary64, z.isNaN = false ∧ z.magnitude = m := by
  have hmagnitude : (ofMagnitude false m).magnitude = m :=
    magnitude_ofMagnitude false (h.trans_lt (by decide))
  exact ⟨_, isNaN_eq_false_iff.2 (hmagnitude.le.trans h), hmagnitude⟩

/-- The number of a word whose magnitude is split into an exponent and a significand; the
significand may be one too large, since it carries into the exponent. -/
theorem absRat_of_magnitude_eq {s n : ℕ} (h : x.magnitude = s * hiddenBit + n)
    (hn : n ≤ 2 * hiddenBit) (hnormal : s = 0 ∨ hiddenBit ≤ n) :
    x.absRat = n * 2 ^ ((s : ℤ) - 1074) := by
  have hsplit := x.magnitude_eq
  have hlt := x.significand_lt
  have hone : 1 ≤ x.scale := le_max_right _ _
  have hpower : x.power = (x.scale : ℤ) - 1075 := rfl
  have hbit : x.scale = 1 ∨ hiddenBit ≤ x.significand := by
    rcases hone.eq_or_lt with h1 | h1
    · exact .inl h1.symm
    · exact .inr (hiddenBit_le_significand h1)
  rw [absRat, hpower]
  by_cases hcarry : n = 2 * hiddenBit
  · have hscale : x.scale = s + 2 ∧ x.significand = hiddenBit := by
      unfold hiddenBit at *
      omega
    rw [hscale.1, hscale.2, hcarry]
    push_cast
    rw [show (s : ℤ) + 2 - 1075 = s - 1074 + 1 by ring, zpow_add_one₀ two_ne_zero]
    ring
  · have hscale : x.scale = s + 1 ∧ x.significand = n := by
      unfold hiddenBit at *
      omega
    rw [hscale.1, hscale.2]
    push_cast
    rw [show (s : ℤ) + 1 - 1075 = s - 1074 by ring]

/-- The next word is one unit in the last place away. -/
theorem absRat_of_magnitude_succ (h : y.magnitude = x.magnitude + 1) :
    y.absRat = x.absRat + 2 ^ x.power := by
  have hone : 1 ≤ x.scale := le_max_right _ _
  have hpower : x.power = ((x.scale - 1 : ℕ) : ℤ) - 1074 := by
    rw [power, ← scale]
    omega
  have hsplit : y.magnitude = (x.scale - 1) * hiddenBit + (x.significand + 1) := by
    rw [h, x.magnitude_eq, Nat.add_assoc]
  have hnormal : x.scale - 1 = 0 ∨ hiddenBit ≤ x.significand + 1 := by
    rcases hone.eq_or_lt with h1 | h1
    · exact .inl (by omega)
    · exact .inr ((hiddenBit_le_significand h1).trans (Nat.le_succ _))
  rw [absRat_of_magnitude_eq hsplit x.significand_lt hnormal, absRat, hpower]
  push_cast
  ring

/-- Between two words there is at least a unit in the last place of the smaller one. -/
theorem absRat_add_le (h : x.magnitude < y.magnitude) : x.absRat + 2 ^ x.power ≤ y.absRat := by
  have hnext : x.magnitude + 1 < signBit := (Nat.succ_le_of_lt h).trans_lt y.magnitude_lt
  have hmagnitude := magnitude_ofMagnitude false hnext
  rw [← absRat_of_magnitude_succ hmagnitude]
  exact absRat_le_absRat (hmagnitude.le.trans h)

theorem absRat_lt_absRat (h : x.magnitude < y.magnitude) : x.absRat < y.absRat :=
  (lt_add_of_pos_right _ (zpow_pos two_pos _)).trans_le (absRat_add_le h)

theorem absRat_lt_absRat_iff : x.absRat < y.absRat ↔ x.magnitude < y.magnitude :=
  ⟨fun h => not_le.1 fun hle => (absRat_le_absRat hle).not_gt h, absRat_lt_absRat⟩

theorem even_significand_iff : Even x.significand ↔ Even x.magnitude := by
  have hbit : Even ((x.scale - 1) * hiddenBit) := Even.mul_left (by decide) _
  rw [x.magnitude_eq, Nat.even_add, iff_true_left hbit]

theorem power_le_power (h : x.magnitude ≤ y.magnitude) : x.power ≤ y.power := by
  have hscale := scale_le_scale h
  rw [power, power, ← scale, ← scale]
  omega

/-- The word above a finite one. -/
theorem exists_above (h : x.isFinite) :
    ∃ z : Binary64, z.isNaN = false ∧ z.absRat = x.absRat + 2 ^ x.power := by
  have hfinite : x.magnitude < infiniteMagnitude := by simpa [isFinite] using h
  obtain ⟨z, hz, hmagnitude⟩ := exists_magnitude_eq hfinite
  exact ⟨z, hz, absRat_of_magnitude_succ hmagnitude⟩

/-- The word below one that is not zero. -/
theorem exists_below (h : x.isNaN = false) (hzero : x.magnitude ≠ 0) :
    ∃ z : Binary64, z.isNaN = false ∧ z.magnitude ≤ x.magnitude ∧
      x.absRat = z.absRat + 2 ^ z.power := by
  obtain ⟨z, hz, hmagnitude⟩ :=
    exists_magnitude_eq ((Nat.sub_le x.magnitude 1).trans (isNaN_eq_false_iff.1 h))
  exact ⟨z, hz, by omega, absRat_of_magnitude_succ (by omega)⟩

/-! ## Nearest words -/

/-- A word is nearest to a number that is not negative, its sign left out: no word is nearer, and
another one as near only if the significand is even.  The infinity takes part in this with the first
number that is too large. -/
structure IsNearest (r : ℚ) (x : Binary64) : Prop where
  number : x.isNaN = false
  near : ∀ y : Binary64, y.isNaN = false → |r - x.absRat| ≤ |r - y.absRat|
  even : ∀ y : Binary64, y.isNaN = false → y.absRat ≠ x.absRat →
    |r - y.absRat| = |r - x.absRat| → Even x.significand

/-- Two nearest words would leave room for a third one between them: they are as near, so both are
even, and so they are not neighbours. -/
theorem IsNearest.magnitude_le (hx : IsNearest r x) (hy : IsNearest r y) :
    y.magnitude ≤ x.magnitude := by
  by_contra hlt
  rw [not_le] at hlt
  have hltRat := absRat_lt_absRat hlt
  have htie : |r - x.absRat| = |r - y.absRat| :=
    le_antisymm (hx.near y hy.number) (hy.near x hx.number)
  have hxeven := even_significand_iff.1 (hx.even y hy.number hltRat.ne' htie.symm)
  have hyeven := even_significand_iff.1 (hy.even x hx.number hltRat.ne htie)
  have hroom : x.magnitude + 1 < y.magnitude := by
    refine lt_of_le_of_ne hlt fun hnext => ?_
    rw [← hnext] at hyeven
    exact Nat.even_add_one.1 hyeven hxeven
  obtain ⟨z, hz, hmagnitude⟩ :=
    exists_magnitude_eq (hroom.le.trans (isNaN_eq_false_iff.1 hy.number))
  have hxz : x.absRat < z.absRat := absRat_lt_absRat (by omega)
  have hzy : z.absRat < y.absRat := absRat_lt_absRat (by omega)
  have hnear := hx.near z hz
  have hmiddle : r - x.absRat = y.absRat - r := by
    rcases abs_eq_abs.1 htie with heq | heq <;> linarith
  rw [abs_of_pos (show 0 < r - x.absRat by linarith), le_abs] at hnear
  rcases hnear with h | h <;> linarith

/-- A number has one nearest word, up to the sign. -/
theorem IsNearest.magnitude_eq (hx : IsNearest r x) (hy : IsNearest r y) :
    x.magnitude = y.magnitude :=
  le_antisymm (hy.magnitude_le hx) (hx.magnitude_le hy)

/-! ## Moving the number -/

/-- The nearest word of one number is that of another one, if every other word is as far beyond the
word from the second number as some word is from the first one. -/
theorem IsNearest.of_images (h : IsNearest r x)
    (himage : ∀ y : Binary64, y.isNaN = false → y.absRat ≠ x.absRat →
      ∃ z : Binary64, z.isNaN = false ∧ z.absRat ≠ x.absRat ∧
        |t - x.absRat| + |r - z.absRat| ≤ |r - x.absRat| + |t - y.absRat|) :
    IsNearest t x where
  number := h.number
  near y hy := by
    by_cases hyx : y.absRat = x.absRat
    · rw [hyx]
    · obtain ⟨z, hz, -, hle⟩ := himage y hy hyx
      linarith [h.near z hz]
  even y hy hyx htie := by
    obtain ⟨z, hz, hzx, hle⟩ := himage y hy hyx
    exact h.even z hz hzx (le_antisymm (by linarith) (h.near z hz))

/-- What lies between a number and its nearest word has the same nearest word. -/
theorem IsNearest.of_between (h : IsNearest r x)
    (ht : x.absRat ≤ t ∧ t ≤ r ∨ r ≤ t ∧ t ≤ x.absRat) : IsNearest t x := by
  have hsplit : |t - x.absRat| + |r - t| = |r - x.absRat| := by
    rcases ht with ⟨hxt, htr⟩ | ⟨hrt, htx⟩
    · rw [abs_of_nonneg (by linarith), abs_of_nonneg (by linarith), abs_of_nonneg (by linarith)]
      ring
    · rw [abs_of_nonpos (by linarith), abs_of_nonpos (by linarith), abs_of_nonpos (by linarith)]
      ring
  refine h.of_images fun y hy hyx => ⟨y, hy, hyx, ?_⟩
  linarith [abs_sub_le r t y.absRat]

/-- A number is in the lower half of the gap above its nearest word. -/
theorem IsNearest.two_mul_sub_le (h : IsNearest r x) (hx : x.isFinite) (hle : x.absRat ≤ r) :
    2 * (r - x.absRat) ≤ 2 ^ x.power := by
  obtain ⟨z, hz, hstep⟩ := exists_above hx
  have hgap : (0 : ℚ) < 2 ^ x.power := zpow_pos two_pos _
  have hnear := h.near z hz
  rw [abs_of_nonneg (sub_nonneg.2 hle), hstep, le_abs] at hnear
  rcases hnear with hnear | hnear <;> linarith

/-- A number is in the upper half of the gap below its nearest word. -/
theorem IsNearest.two_mul_sub_le_of_le {z : Binary64} (h : IsNearest r x) (hz : z.isNaN = false)
    (hstep : x.absRat = z.absRat + 2 ^ z.power) (hle : r ≤ x.absRat) :
    2 * (x.absRat - r) ≤ 2 ^ z.power := by
  have hgap : (0 : ℚ) < 2 ^ z.power := zpow_pos two_pos _
  have hnear := h.near z hz
  rw [abs_of_nonpos (sub_nonpos.2 hle), le_abs] at hnear
  rcases hnear with hnear | hnear <;> linarith

theorem abs_mirror (a r : ℚ) : |2 * a - r - a| = |r - a| := by
  rw [abs_sub_comm r]
  congr 1
  ring

/-- The mirror image of a number below its nearest word has the same nearest word: above a word
there is at least as much room as below it. -/
theorem IsNearest.reflect_up (h : IsNearest r x) (hr : 0 ≤ r) (hle : r ≤ x.absRat) :
    IsNearest (2 * x.absRat - r) x := by
  refine h.of_images fun y hy hyx => ?_
  rw [abs_mirror]
  rcases hyx.lt_or_gt with hlt | hgt
  · refine ⟨y, hy, hyx, ?_⟩
    rw [abs_of_nonneg (by linarith : 0 ≤ 2 * x.absRat - r - y.absRat)]
    have : |r - y.absRat| ≤ 2 * x.absRat - r - y.absRat :=
      abs_le.2 ⟨by linarith, by linarith⟩
    linarith
  · by_cases hzero : x.magnitude = 0
    · have hx : x.absRat = 0 := absRat_eq_zero_iff.2 (significand_eq_zero_of_magnitude hzero)
      rw [hx] at hle
      refine ⟨y, hy, hyx, ?_⟩
      rw [hx, le_antisymm hle hr, mul_zero, sub_zero]
    · obtain ⟨z, hz, hmagnitude, hstep⟩ := exists_below h.number hzero
      have hgap : (0 : ℚ) < 2 ^ z.power := zpow_pos two_pos _
      have hwider : (2 : ℚ) ^ z.power ≤ 2 ^ x.power :=
        zpow_le_zpow_right₀ one_le_two (power_le_power hmagnitude)
      have hbeyond := absRat_add_le (absRat_lt_absRat_iff.1 hgt)
      have hhalf := h.two_mul_sub_le_of_le hz hstep hle
      refine ⟨z, hz, by linarith, ?_⟩
      rw [abs_of_nonneg (by linarith : 0 ≤ r - z.absRat),
        abs_of_nonpos (by linarith : 2 * x.absRat - r - y.absRat ≤ 0)]
      linarith

/-- The mirror image of a number above its nearest word, where the words are equally far apart on
both sides. -/
theorem IsNearest.reflect_down (h : IsNearest r x) (hx : x.isFinite) (hscale : x.scale = 1)
    (hle : x.absRat ≤ r) : IsNearest (2 * x.absRat - r) x := by
  refine h.of_images fun y hy hyx => ?_
  rw [abs_mirror]
  rcases hyx.lt_or_gt with hlt | hgt
  · obtain ⟨z, hz, hstep⟩ := exists_above hx
    have hgap : (0 : ℚ) < 2 ^ x.power := zpow_pos two_pos _
    have hmagnitude := absRat_lt_absRat_iff.1 hlt
    have hpower : y.power = x.power := by
      have hone : 1 ≤ y.scale := le_max_right _ _
      have := scale_le_scale hmagnitude.le
      rw [power, power, ← scale, ← scale]
      omega
    have hbeyond := absRat_add_le hmagnitude
    rw [hpower] at hbeyond
    have hhalf := h.two_mul_sub_le hx hle
    refine ⟨z, hz, by linarith, ?_⟩
    rw [abs_of_nonpos (by linarith : r - z.absRat ≤ 0),
      abs_of_nonneg (by linarith : 0 ≤ 2 * x.absRat - r - y.absRat)]
    linarith
  · refine ⟨y, hy, hyx, ?_⟩
    rw [abs_of_nonpos (by linarith : 2 * x.absRat - r - y.absRat ≤ 0)]
    have : |r - y.absRat| ≤ -(2 * x.absRat - r - y.absRat) :=
      abs_le.2 ⟨by linarith, by linarith⟩
    linarith

/-! ## Finding the nearest word -/

/-- The exponent of the last binary place that a word near a number has. -/
def lastPlace (r : ℚ) : ℤ := max (Int.log 2 r - 52) (-1074)

/-- The magnitude of the word nearest to a number that is not negative: the number is rounded to its
last place, a carry moves into the exponent, and what is too large becomes the infinity. -/
def nearestMagnitude (r : ℚ) : ℕ :=
  if r = 0 then 0
  else min infiniteMagnitude
    ((lastPlace r + 1074).toNat * hiddenBit + Decimal.roundEven (r / 2 ^ lastPlace r))

theorem lastPlace_spec (h : 0 < r) :
    r < 2 ^ (lastPlace r + 53) ∧ (lastPlace r = -1074 ∨ 2 ^ (lastPlace r + 52) ≤ r) := by
  have hlow : (2 : ℚ) ^ Int.log 2 r ≤ r := by exact_mod_cast Int.zpow_log_le_self one_lt_two h
  have hhigh : r < (2 : ℚ) ^ (Int.log 2 r + 1) := by
    exact_mod_cast Int.lt_zpow_succ_log_self one_lt_two r
  refine ⟨hhigh.trans_le (zpow_le_zpow_right₀ one_le_two ?_), ?_⟩
  · unfold lastPlace
    omega
  · by_cases hclamped : lastPlace r = -1074
    · exact .inl hclamped
    · have hplace : lastPlace r + 52 = Int.log 2 r := by
        unfold lastPlace at hclamped ⊢
        omega
      exact .inr (hplace ▸ hlow)

/-- A word that a number is rounded to at its last place is nearest to it. -/
theorem isNearest_of_absRat {p : ℤ} {n : ℕ} (hx : x.isNaN = false)
    (hn : Decimal.NearestEven (r / 2 ^ p) n) (hp : p = -1074 ∨ 2 ^ (p + 52) ≤ r)
    (habs : x.absRat = n * 2 ^ p) (heven : Even n → Even x.significand) : IsNearest r x := by
  have hother : ∀ y : Binary64, y.absRat ≠ x.absRat → |r - x.absRat| < |r - y.absRat| ∨
      |r - x.absRat| = |r - y.absRat| ∧ Even n := by
    intro y hyx
    have hgrid : p ≤ y.power ∨ (2 : ℚ) ^ (p + 52) ≤ r := by
      refine hp.imp_left fun hclamped => ?_
      rw [hclamped, power]
      omega
    have hdigits : y.significand < 2 ^ (52 + 1) := y.significand_lt
    rw [habs] at hyx ⊢
    rw [absRat] at hyx ⊢
    have hnear := Decimal.NearestEven.near_of_digits (b := 2) (k := 52) one_lt_two (r := r) (e := p)
      (n := n) (by exact_mod_cast hn) hdigits (by exact_mod_cast hgrid) (by exact_mod_cast hyx)
    exact_mod_cast hnear
  refine ⟨hx, fun y _ => ?_, fun y _ hyx htie => ?_⟩
  · by_cases hyx : y.absRat = x.absRat
    · rw [hyx]
    · exact (hother y hyx).elim le_of_lt fun h => h.1.le
  · rcases hother y hyx with hlt | ⟨-, hn⟩
    · exact absurd htie hlt.ne'
    · exact heven hn

/-- Zero is nearest to zero. -/
theorem isNearest_zero (h : x.magnitude = 0) : IsNearest 0 x := by
  have habs : x.absRat = 0 := absRat_eq_zero_iff.2 (significand_eq_zero_of_magnitude h)
  have hnumber : x.isNaN = false := isNaN_eq_false_iff.2 (h ▸ Nat.zero_le _)
  refine ⟨hnumber, fun y _ => ?_, fun y _ hyx htie => absurd ?_ hyx⟩
  · rw [habs, sub_zero, abs_zero]
    exact abs_nonneg _
  · rw [habs, sub_zero, abs_zero, zero_sub, abs_neg, abs_eq_zero] at htie
    rw [htie, habs]

theorem absRat_of_infinite (h : x.magnitude = infiniteMagnitude) : x.absRat = 2 ^ (1024 : ℤ) := by
  have hsplit : x.magnitude = 2046 * hiddenBit + hiddenBit := by
    rw [h]
    rfl
  have hbit : ((hiddenBit : ℕ) : ℚ) = 2 ^ (52 : ℤ) := by norm_num [hiddenBit]
  rw [absRat_of_magnitude_eq hsplit (by omega) (.inr le_rfl), hbit, ← zpow_add₀ two_ne_zero]
  rfl

/-- The infinity is nearest to every number that is too large. -/
theorem isNearest_of_infinite (h : x.magnitude = infiniteMagnitude) (hr : 2 ^ (1024 : ℤ) ≤ r) :
    IsNearest r x := by
  rw [← absRat_of_infinite h] at hr
  have htop : ∀ y : Binary64, y.isNaN = false → y.absRat ≤ x.absRat := fun y hy =>
    absRat_le_absRat (h ▸ isNaN_eq_false_iff.1 hy)
  have hdistance : ∀ y : Binary64, y.isNaN = false → |r - y.absRat| = r - y.absRat := fun y hy =>
    abs_of_nonneg (sub_nonneg.2 ((htop y hy).trans hr))
  have hnumber : x.isNaN = false := isNaN_eq_false_iff.2 h.le
  refine ⟨hnumber, fun y hy => ?_, fun y hy hyx htie => absurd ?_ hyx⟩
  · rw [hdistance x hnumber, hdistance y hy]
    exact sub_le_sub_left (htop y hy) r
  · rw [hdistance x hnumber, hdistance y hy] at htie
    exact sub_right_injective htie

/-- A number has at most 53 binary digits down to its last place, and exactly so many unless that is
the smallest place. -/
theorem roundEven_bounds (h : 0 < r) :
    Decimal.roundEven (r / 2 ^ lastPlace r) ≤ 2 * hiddenBit ∧
      (lastPlace r = -1074 ∨ hiddenBit ≤ Decimal.roundEven (r / 2 ^ lastPlace r)) := by
  obtain ⟨hhigh, hlow⟩ := lastPlace_spec h
  have hunit : (0 : ℚ) < 2 ^ lastPlace r := zpow_pos two_pos _
  have hn := Decimal.nearestEven_roundEven (div_nonneg h.le hunit.le)
  constructor
  · refine hn.mono (Decimal.nearestEven_natCast (2 * hiddenBit)) ?_
    rw [div_le_iff₀ hunit]
    refine hhigh.le.trans (le_of_eq ?_)
    rw [zpow_add₀ two_ne_zero, mul_comm]
    norm_num [hiddenBit]
  · refine hlow.imp_right fun hlow => (Decimal.nearestEven_natCast hiddenBit).mono hn ?_
    rw [le_div_iff₀ hunit]
    refine (le_of_eq ?_).trans hlow
    rw [zpow_add₀ two_ne_zero, mul_comm]
    norm_num [hiddenBit]

/-- What does not fit below the infinity is too large. -/
theorem le_of_infiniteMagnitude_lt (h : 0 < r)
    (hlarge : infiniteMagnitude < (lastPlace r + 1074).toNat * hiddenBit +
      Decimal.roundEven (r / 2 ^ lastPlace r)) : 2 ^ (1024 : ℤ) ≤ r := by
  obtain ⟨-, hlow⟩ := lastPlace_spec h
  obtain ⟨htop, -⟩ := roundEven_bounds h
  refine not_lt.1 fun hsmall => ?_
  have hbound : lastPlace r ≤ 971 := by
    rcases hlow with hlow | hlow
    · omega
    · have := (zpow_lt_zpow_iff_right₀ one_lt_two).1 (hlow.trans_lt hsmall)
      omega
  unfold infiniteMagnitude hiddenBit at *
  omega

/-- **The nearest word is found by rounding.** -/
theorem isNearest_of_magnitude (hr : 0 ≤ r) (hx : x.magnitude = nearestMagnitude r) :
    IsNearest r x := by
  rw [nearestMagnitude] at hx
  split_ifs at hx with hzero
  · rw [hzero]
    exact isNearest_zero hx
  · have hpos : 0 < r := lt_of_le_of_ne hr (Ne.symm hzero)
    by_cases hfits : (lastPlace r + 1074).toNat * hiddenBit +
        Decimal.roundEven (r / 2 ^ lastPlace r) ≤ infiniteMagnitude
    · rw [Nat.min_eq_right hfits] at hx
      obtain ⟨htop, hnormal⟩ := roundEven_bounds hpos
      have hclamp : -1074 ≤ lastPlace r := le_max_right _ _
      have hplace : (((lastPlace r + 1074).toNat : ℕ) : ℤ) - 1074 = lastPlace r := by omega
      have habs := absRat_of_magnitude_eq hx htop (hnormal.imp_left fun h => by omega)
      rw [hplace] at habs
      have hn := Decimal.nearestEven_roundEven (div_nonneg hr (zpow_pos two_pos (lastPlace r)).le)
      refine isNearest_of_absRat (isNaN_eq_false_iff.2 (hx ▸ hfits)) hn (lastPlace_spec hpos).2 habs
        fun heven => ?_
      rw [even_significand_iff, hx]
      exact (Even.mul_left (by decide) _).add heven
    · rw [Nat.min_eq_left (Nat.le_of_not_le hfits)] at hx
      exact isNearest_of_infinite hx (le_of_infiniteMagnitude_lt hpos (not_le.1 hfits))

theorem nearestMagnitude_lt (r : ℚ) : nearestMagnitude r < signBit := by
  have hle : nearestMagnitude r ≤ infiniteMagnitude := by
    rw [nearestMagnitude]
    split_ifs
    · exact Nat.zero_le _
    · exact Nat.min_le_left _ _
  exact hle.trans_lt (by decide)

end Binary64

namespace Decimal

variable {x : Binary64}

theorem absRat_nonneg (d : Decimal) : 0 ≤ d.absRat :=
  mul_nonneg (Nat.cast_nonneg _) (ten_zpow_pos _).le

/-- **The word that a decimal is read as**: the nearest one, with the sign of the decimal. -/
def nearestWord (d : Decimal) : Binary64 :=
  .ofMagnitude d.negative (Binary64.nearestMagnitude d.absRat)

/-- **The nearest word is the only one** that has the sign of the decimal and is nearest to it. -/
theorem nearestWord_eq_iff (d : Decimal) :
    d.nearestWord = x ↔ x.isNegative = d.negative ∧ Binary64.IsNearest d.absRat x := by
  have hlt := Binary64.nearestMagnitude_lt d.absRat
  have hmagnitude := Binary64.magnitude_ofMagnitude d.negative hlt
  have hsign := Binary64.isNegative_ofMagnitude d.negative hlt
  have hnearest := Binary64.isNearest_of_magnitude d.absRat_nonneg hmagnitude
  constructor
  · rintro rfl
    exact ⟨hsign, hnearest⟩
  · rintro ⟨hx, hd⟩
    exact Binary64.eq_of_magnitude_eq (hsign.trans hx.symm) (hnearest.magnitude_eq hd)

end Decimal
end PostRun
