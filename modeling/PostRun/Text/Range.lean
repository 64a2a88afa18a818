/-!
# Ranges of characters

A property of characters is kept as the ascending list of the ranges that have it, each
with its first and its last number.
-/

namespace PostRun
namespace Text

/-- Whether a number lies in one of the given ranges. -/
def liesIn (ranges : List (Nat × Nat)) (n : Nat) : Bool :=
  ranges.any fun r => r.1 ≤ n && n ≤ r.2

@[simp] theorem liesIn_nil (n : Nat) : liesIn [] n = false := rfl

@[simp] theorem liesIn_cons (r : Nat × Nat) (rs : List (Nat × Nat)) (n : Nat) :
    liesIn (r :: rs) n = (r.1 ≤ n && n ≤ r.2 || liesIn rs n) := rfl

end Text
end PostRun
