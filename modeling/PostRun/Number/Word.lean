/-!
# Counting in machine words

Where a count is kept in a word of 64 bits, an operation has a result only as long as a word
holds it.  Adding ends at the greatest word, and nothing can be shifted by as many places as
a word has.  The operations here have no result then, where a machine stops or goes on with
what is left of the number.

A result is what a number of any size would be: `add?_eq_some_iff`,
`shiftLeft?_one_eq_some_iff`.
-/

namespace PostRun
namespace Word

/-- The sum of two words. -/
def add? (a b : UInt64) : Option UInt64 :=
  if a.toNat + b.toNat < UInt64.size then some (a + b) else none

/-- A word shifted to the left.  What leaves it at the upper end is lost; only the number of
places can be too large. -/
def shiftLeft? (a : UInt64) (places : UInt32) : Option UInt64 :=
  if places < 64 then some (a <<< places.toUInt64) else none

theorem add?_eq_some_iff {a b c : UInt64} : add? a b = some c ↔ c.toNat = a.toNat + b.toNat := by
  unfold add?
  split
  next h =>
    have hsum : (a + b).toNat = a.toNat + b.toNat := by
      rw [UInt64.toNat_add]
      exact Nat.mod_eq_of_lt h
    rw [Option.some.injEq, ← UInt64.toNat_inj, hsum, eq_comm]
  next h =>
    have hc := c.toNat_lt_size
    constructor
    · intro hnone
      cases hnone
    · intro hsum
      omega

/-- There is a sum if a word holds it. -/
theorem exists_add?_eq_some {a b : UInt64} (h : a.toNat + b.toNat < UInt64.size) :
    ∃ c, add? a b = some c ∧ c.toNat = a.toNat + b.toNat :=
  have hsum := UInt64.toNat_ofNat_of_lt' h
  ⟨_, add?_eq_some_iff.2 hsum, hsum⟩

/-- A single bit shifted to the left is a power of two. -/
theorem shiftLeft?_one_eq_some_iff {places : UInt32} {c : UInt64} :
    shiftLeft? 1 places = some c ↔ c.toNat = Nat.pow 2 places.toNat := by
  unfold shiftLeft?
  split
  next h =>
    have hplaces : places.toNat < 64 := UInt32.lt_iff_toNat_lt.1 h
    have hfits : 2 ^ places.toNat < 2 ^ 64 := Nat.pow_lt_pow_right (by decide) hplaces
    have hpower : ((1 : UInt64) <<< places.toUInt64).toNat = Nat.pow 2 places.toNat := by
      rw [UInt64.toNat_shiftLeft, UInt32.toNat_toUInt64, Nat.mod_eq_of_lt hplaces,
        Nat.shiftLeft_eq, UInt64.toNat_one, Nat.one_mul, Nat.mod_eq_of_lt hfits]
      rfl
    rw [Option.some.injEq, ← UInt64.toNat_inj, hpower, eq_comm]
  next h =>
    have hplaces : 64 ≤ places.toNat := Nat.not_lt.1 fun hlt => h (UInt32.lt_iff_toNat_lt.2 hlt)
    have hexceeds : 2 ^ 64 ≤ 2 ^ places.toNat := Nat.pow_le_pow_right (by decide) hplaces
    constructor
    · intro hnone
      cases hnone
    · intro hpower
      exact absurd (Nat.le_trans hexceeds (Nat.le_of_eq hpower.symm)) (Nat.not_le.2 c.toNat_lt)

/-- A bit is shifted by less than the width of a word. -/
theorem exists_shiftLeft?_one_eq_some {places : UInt32} (h : places.toNat < 64) :
    ∃ c, shiftLeft? 1 places = some c ∧ c.toNat = Nat.pow 2 places.toNat :=
  have hfits : 2 ^ places.toNat < 2 ^ 64 := Nat.pow_lt_pow_right (by decide) h
  have hpower := UInt64.toNat_ofNat_of_lt' hfits
  ⟨_, shiftLeft?_one_eq_some_iff.2 hpower, hpower⟩

end Word
end PostRun
