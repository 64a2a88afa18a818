import Mathlib.Algebra.Order.Field.Basic
import Mathlib.Algebra.Order.Field.Power
import Mathlib.Tactic.Linarith
import Mathlib.Tactic.NormNum
import PostRun.Number.Decimal

/-!
# Rounding on a grid

A number is rounded to the nearest natural number, the even one of two (`Decimal.NearestEven`), and
by this to the nearest number on a grid.  The quotients that are rounded in natural numbers are
rounded so (`Decimal.nearestEven_roundDiv`).

A number of few digits may be on a finer grid.  It is not nearer even then, as long as the first
number has all the digits: what is on a finer grid and has no more digits lies below the power that
the coarser grid begins with (`Decimal.mul_zpow_lt`), and that power is on the coarser grid, too.
This is `Decimal.NearestEven.near_of_digits`.  It holds in any base; it is used of decimals and of
the binary digits of words.
-/

namespace PostRun
namespace Decimal

/-! ## The nearest natural number -/

/-- A natural number is nearest to a number, and even if another one is as near. -/
structure NearestEven (r : ℚ) (n : ℕ) : Prop where
  near : |r - n| ≤ 1 / 2
  even : |r - n| = 1 / 2 → Even n

/-- No other number is as near as one within less than a half. -/
theorem NearestEven.of_lt {r : ℚ} {n : ℕ} (h : |r - n| < 1 / 2) : NearestEven r n where
  near := h.le
  even := fun htie => absurd htie h.ne

theorem nearestEven_natCast (n : ℕ) : NearestEven n n := .of_lt (by norm_num)

/-- **Rounding is monotone**: between two neighbours the larger number cannot go down while the
smaller one goes up, since of a tie only the even one is nearest. -/
theorem NearestEven.mono {r s : ℚ} {m n : ℕ} (hm : NearestEven r m) (hn : NearestEven s n)
    (h : r ≤ s) : m ≤ n := by
  by_contra hlt
  have hsucc : (n : ℚ) + 1 ≤ m := by exact_mod_cast not_le.1 hlt
  have hlow := (abs_le.1 hm.near).1
  have hhigh := (abs_le.1 hn.near).2
  have hr : r - m = -(1 / 2) := by linarith
  have hs : s - n = 1 / 2 := by linarith
  have hm' : Even m := hm.even (by rw [hr, abs_neg, abs_of_pos one_half_pos])
  have hn' : Even n := hn.even (by rw [hs, abs_of_pos one_half_pos])
  have heq : m = n + 1 := by
    have : (m : ℚ) = n + 1 := by linarith
    exact_mod_cast this
  rw [heq] at hm'
  exact (Nat.even_add_one.1 hm') hn'

/-- **The rounded quotient** is nearest. -/
theorem nearestEven_roundDiv (num : ℕ) {den : ℕ} (hden : den ≠ 0) :
    NearestEven (num / den) (roundDiv num den) := by
  have hpos : (0 : ℚ) < den := Nat.cast_pos.2 (Nat.pos_of_ne_zero hden)
  set q := num / den with hq
  set r := num % den with hr
  set f := (r : ℚ) / den with hf
  have hsplit : (num : ℚ) / den = q + f := by
    have hnum : (num : ℚ) = den * q + r := by exact_mod_cast (Nat.div_add_mod num den).symm
    rw [hnum, add_div, mul_div_cancel_left₀ _ hpos.ne']
  have hnonneg : 0 ≤ f := div_nonneg (Nat.cast_nonneg _) hpos.le
  rw [hsplit, roundDiv, ← hq, ← hr]
  rcases lt_trichotomy (2 * r) den with hlt | heq | hgt
  · have hhalf : f < 1 / 2 := by
      rw [hf, div_lt_iff₀ hpos]
      have : (2 : ℚ) * r < den := by exact_mod_cast hlt
      linarith
    rw [if_pos hlt]
    refine .of_lt ?_
    rw [add_sub_cancel_left, abs_of_nonneg hnonneg]
    exact hhalf
  · have hhalf : f = 1 / 2 := by
      rw [hf, div_eq_iff hpos.ne']
      have : (2 : ℚ) * r = den := by exact_mod_cast heq
      linarith
    rw [if_neg heq.not_lt, if_neg heq.not_gt, hhalf]
    split_ifs with hparity
    · exact ⟨by rw [add_sub_cancel_left, abs_of_pos one_half_pos],
        fun _ => Nat.even_iff.2 hparity⟩
    · have hodd : Even (q + 1) := Nat.even_add_one.2 fun heven => hparity (Nat.even_iff.1 heven)
      refine ⟨?_, fun _ => hodd⟩
      push_cast
      rw [abs_le]
      constructor <;> linarith
  · have hhalf : 1 / 2 < f := by
      rw [hf, lt_div_iff₀ hpos]
      have : (den : ℚ) < 2 * r := by exact_mod_cast hgt
      linarith
    have hone : f < 1 := by
      rw [hf, div_lt_one hpos]
      exact_mod_cast Nat.mod_lt num (Nat.pos_of_ne_zero hden)
    rw [if_neg hgt.not_gt, if_pos hgt]
    refine .of_lt ?_
    push_cast
    rw [abs_lt]
    constructor <;> linarith

/-- The natural number nearest to a number that is not negative, the even one of two. -/
def roundEven (r : ℚ) : ℕ := roundDiv r.num.toNat r.den

theorem nearestEven_roundEven {r : ℚ} (h : 0 ≤ r) : NearestEven r (roundEven r) := by
  have hnearest := nearestEven_roundDiv r.num.toNat r.den_nz
  have hnum : ((r.num.toNat : ℕ) : ℚ) = r.num := by
    exact_mod_cast congrArg (Int.cast (R := ℚ)) (Int.toNat_of_nonneg (Rat.num_nonneg.2 h))
  rwa [hnum, Rat.num_div_den] at hnearest

/-! ## Grids -/

/-- No other natural number is nearer, and another one as near only if the number is even. -/
theorem NearestEven.near_of_ne {r : ℚ} {n m : ℕ} (h : NearestEven r n) (hm : m ≠ n) :
    |r - n| < |r - m| ∨ |r - n| = |r - m| ∧ Even n := by
  have hone : (1 : ℚ) ≤ |(m : ℚ) - n| := by
    have hne : (m : ℤ) - n ≠ 0 := sub_ne_zero.2 (by exact_mod_cast hm)
    exact_mod_cast Int.one_le_abs hne
  have hsum : |(m : ℚ) - n| ≤ |r - m| + |r - n| := by
    rw [abs_sub_comm r m]
    exact abs_sub_le _ _ _
  rcases h.near.lt_or_eq with hlt | heq
  · exact .inl (by linarith)
  · rcases (show |r - n| ≤ |r - m| by linarith).lt_or_eq with hlt | hle
    · exact .inl hlt
    · exact .inr ⟨hle, h.even heq⟩

/-- The same on a grid with any unit. -/
theorem NearestEven.near_on_grid {r unit : ℚ} {n m : ℕ} (hunit : 0 < unit)
    (h : NearestEven (r / unit) n) (hm : m ≠ n) :
    |r - n * unit| < |r - m * unit| ∨ |r - n * unit| = |r - m * unit| ∧ Even n := by
  have hscale : ∀ j : ℕ, |r - j * unit| = |r / unit - j| * unit := by
    intro j
    rw [← abs_of_pos hunit, ← abs_mul, abs_of_pos hunit, sub_mul, div_mul_cancel₀ _ hunit.ne']
  rw [hscale, hscale]
  exact (h.near_of_ne hm).imp (fun hlt => mul_lt_mul_of_pos_right hlt hunit)
    fun heq => ⟨by rw [heq.1], heq.2⟩

/-- A number of at most `k + 1` digits that is on a finer grid lies below the first number that has
so many digits on the coarser one. -/
theorem mul_zpow_lt {b k : ℕ} (hb : 1 < b) {m : ℕ} (hm : m < b ^ (k + 1)) {e f : ℤ} (hfe : f < e) :
    (m : ℚ) * (b : ℚ) ^ f < (b : ℚ) ^ (e + k) := by
  have hbase : (1 : ℚ) < b := by exact_mod_cast hb
  have hzero : (0 : ℚ) < b := by linarith
  calc (m : ℚ) * (b : ℚ) ^ f
      < (b : ℚ) ^ (k + 1) * (b : ℚ) ^ f :=
        mul_lt_mul_of_pos_right (by exact_mod_cast hm) (zpow_pos hzero f)
    _ = (b : ℚ) ^ (f + (k + 1 : ℕ)) := by
        rw [← zpow_natCast, ← zpow_add₀ hzero.ne', add_comm]
    _ ≤ (b : ℚ) ^ (e + k) := zpow_le_zpow_right₀ hbase.le (by push_cast; omega)

/-- **Rounding to so many digits finds the nearest number of at most so many digits**, in any base:
on the grid and on coarser ones since they are part of it, and on finer ones since the power that
the grid begins with lies between. -/
theorem NearestEven.near_of_digits {b k : ℕ} (hb : 1 < b) {r : ℚ} {e : ℤ} {n : ℕ}
    (h : NearestEven (r / (b : ℚ) ^ e) n) {m : ℕ} {f : ℤ} (hm : m < b ^ (k + 1))
    (hgrid : e ≤ f ∨ (b : ℚ) ^ (e + k) ≤ r) (hne : (m : ℚ) * (b : ℚ) ^ f ≠ n * (b : ℚ) ^ e) :
    |r - n * (b : ℚ) ^ e| < |r - m * (b : ℚ) ^ f| ∨
      |r - n * (b : ℚ) ^ e| = |r - m * (b : ℚ) ^ f| ∧ Even n := by
  have hzero : (0 : ℚ) < b := by exact_mod_cast Nat.zero_lt_of_lt hb
  have hunit : (0 : ℚ) < (b : ℚ) ^ e := zpow_pos hzero e
  have hshift : ∀ i : ℕ, (b : ℚ) ^ (e + i) = ((b ^ i : ℕ) : ℚ) * (b : ℚ) ^ e := by
    intro i
    rw [zpow_add₀ hzero.ne', zpow_natCast, mul_comm, Nat.cast_pow]
  rcases le_or_gt e f with hef | hfe
  · obtain ⟨i, rfl⟩ := Int.exists_add_of_le hef
    rw [hshift, ← mul_assoc, ← Nat.cast_mul] at hne ⊢
    exact h.near_on_grid hunit fun heq => hne (by rw [heq])
  · have hlow : (b : ℚ) ^ (e + k) ≤ r := hgrid.resolve_left (not_le.2 hfe)
    have hbelow : (m : ℚ) * (b : ℚ) ^ f < (b : ℚ) ^ (e + k) := mul_zpow_lt hb hm hfe
    have hnear : |r - n * (b : ℚ) ^ e| ≤ |r - (b : ℚ) ^ (e + k)| := by
      rw [hshift]
      by_cases heq : b ^ k = n
      · rw [heq]
      · exact (h.near_on_grid hunit heq).elim le_of_lt fun htie => htie.1.le
    refine .inl (hnear.trans_lt ?_)
    rw [abs_of_nonneg (sub_nonneg.2 hlow), abs_of_nonneg (by linarith)]
    linarith

end Decimal
end PostRun
