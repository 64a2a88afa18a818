import PostRun.Number.Binary64

/-!
# Decimals near a binary64 word

A decimal is a sign, a natural number of digits and a power of ten.  Two
decimals are read off a finite word, both by exact arithmetic on natural
numbers:

* `Decimal.shortest`: the fewest digits that read back as the word, the nearest
  to it among those of equal length;
* `Decimal.rounded n`: the nearest decimal of `n + 1` digits, a tie going to the
  even digit.

## Exact fractions

A positive word is the fraction `num / den` of two natural numbers.  The decimals
of `k` digits near it are the multiples of `10 ^ (e - k + 1)`, where `10 ^ e` is
the power of ten at or below the fraction.  Of that grid only the two neighbours
of the fraction matter: a longer grid is tried when neither of them lies between
the two midpoints around the word.
-/

namespace PostRun

/-- The number `± digits * 10 ^ exponent`. -/
structure Decimal where
  negative : Bool
  digits : Nat
  exponent : Int
  deriving DecidableEq

namespace Decimal

/-- A positive fraction. -/
structure Fraction where
  num : Nat
  den : Nat
  deriving DecidableEq

/-- A power of ten. -/
def powerOfTen (n : Nat) : Nat := Nat.pow 10 n

/-- `m * 2 ^ q` as a fraction. -/
def Fraction.ofDyadic (m : Nat) (q : Int) : Fraction :=
  ⟨m * Nat.pow 2 q.toNat, Nat.pow 2 (-q).toNat⟩

/-- A fraction divided by a power of ten. -/
def Fraction.scaleDown (x : Fraction) (e : Int) : Fraction :=
  ⟨x.num * powerOfTen (-e).toNat, x.den * powerOfTen e.toNat⟩

/-- The whole part of a fraction. -/
def Fraction.floor (x : Fraction) : Nat := x.num / x.den

/-- The comparison of two fractions. -/
def Fraction.le (x y : Fraction) : Bool := x.num * y.den ≤ y.num * x.den

/-- The strict comparison of two fractions. -/
def Fraction.lt (x y : Fraction) : Bool := x.num * y.den < y.num * x.den

/-- A natural number as a fraction. -/
def Fraction.ofNat (n : Nat) : Fraction := ⟨n, 1⟩

/-- The number of decimal digits of a natural number, one for zero. -/
def digitCount (n : Nat) : Nat := (Nat.toDigits 10 n).length

/-- The exponent of the power of ten at or below a positive fraction. -/
def Fraction.decimalExponent (x : Fraction) : Int :=
  if x.den ≤ x.num then (digitCount (x.num / x.den) : Int) - 1
  else -(digitCount ((x.den + x.num - 1) / x.num - 1) : Int)

/-- The word as a fraction, its sign left out. -/
def valueOf (x : Binary64) : Fraction := .ofDyadic x.significand x.power

/-- The midpoint between the word and its neighbour away from zero. -/
def upperMidpoint (x : Binary64) : Fraction := .ofDyadic (2 * x.significand + 1) (x.power - 1)

/-- The midpoint between the word and its neighbour towards zero.  That neighbour is half as far
where the exponent drops. -/
def lowerMidpoint (x : Binary64) : Fraction :=
  if x.fraction = 0 ∧ 1 < x.exponentField then
    .ofDyadic (4 * x.significand - 1) (x.power - 2)
  else .ofDyadic (2 * x.significand - 1) (x.power - 1)

/-- Whether a decimal of the grid `10 ^ e` reads back as the word.  The midpoints do so for an
even significand. -/
def readsBack (x : Binary64) (e : Int) (d : Nat) : Bool :=
  let low := (lowerMidpoint x).scaleDown e
  let high := (upperMidpoint x).scaleDown e
  let here := Fraction.ofNat d
  if x.significand % 2 = 0 then low.le here && here.le high else low.lt here && here.lt high

/-- The neighbour on the grid `10 ^ e` that is nearest to the word, of those that read back; of
two equally near the larger. -/
def nearestOn? (x : Binary64) (e : Int) : Option Nat :=
  let scaled := (valueOf x).scaleDown e
  let d := scaled.floor
  match readsBack x e d, readsBack x e (d + 1) with
  | true, true => if 2 * (scaled.num - d * scaled.den) < scaled.den then some d else some (d + 1)
  | true, false => some d
  | false, true => some (d + 1)
  | false, false => none

/-- Moves the zeros at the end of the digits into the exponent. -/
def dropZeros : Nat → Nat → Int → Nat × Int
  | 0, d, e => (d, e)
  | fuel + 1, d, e => if d ≠ 0 ∧ d % 10 = 0 then dropZeros fuel (d / 10) (e + 1) else (d, e)

/-- The decimals of `k`, `k + 1`, … digits, until one reads back. -/
def searchShortest (x : Binary64) (top : Int) : Nat → Nat → Nat × Int
  | 0, k => (((valueOf x).scaleDown (top - k)).floor, top - k)
  | fuel + 1, k =>
      match nearestOn? x (top - k) with
      | some d => (d, top - k)
      | none => searchShortest x top fuel (k + 1)

/-- The fewest digits that read back as a finite word. -/
def shortest (x : Binary64) : Decimal :=
  if x.significand = 0 then ⟨x.isNegative, 0, 0⟩
  else
    let (d, e) := searchShortest x (valueOf x).decimalExponent 17 0
    let (d, e) := dropZeros 20 d e
    ⟨x.isNegative, d, e⟩

/-- A quotient rounded to the nearest natural number, a tie going to the even one. -/
def roundDiv (num den : Nat) : Nat :=
  let q := num / den
  let r := num % den
  if 2 * r < den then q
  else if den < 2 * r then q + 1
  else if q % 2 = 0 then q else q + 1

/-- The nearest decimal of `n + 1` digits.  Rounding up to a power of ten shortens the digits
again. -/
def rounded (n : Nat) (x : Binary64) : Decimal :=
  if x.significand = 0 then ⟨x.isNegative, 0, -(n : Int)⟩
  else
    let e := (valueOf x).decimalExponent - n
    let scaled := (valueOf x).scaleDown e
    let d := roundDiv scaled.num scaled.den
    if d = powerOfTen (n + 1) then ⟨x.isNegative, powerOfTen n, e + 1⟩ else ⟨x.isNegative, d, e⟩

/-- The digits as characters, most significant first. -/
def characters (n : Nat) : List Char := Nat.toDigits 10 n

end Decimal
end PostRun
