import PostRun.Number.Decimal

/-!
# Written forms of numbers

Three written forms of a binary64 word:

* `Binary64.plain`: the shortest digits that read back, written positionally
  without an exponent;
* `Binary64.scientific`: the same digits with one of them before the point and an
  exponent;
* `Binary64.timeStamp`: fifteen digits and an exponent of two digits at least,
  the form in which an index states a time.

Infinities and NaN are the words `inf`, `-inf` and `NaN` in all three.
-/

namespace PostRun
namespace Decimal

/-- The sign as a prefix of the digits. -/
def signText (negative : Bool) : List Char := if negative then ['-'] else []

/-- The digits written positionally. -/
def positional (x : Decimal) : List Char :=
  let ds := characters x.digits
  signText x.negative ++
    if x.digits = 0 then ['0']
    else if 0 ≤ x.exponent then ds ++ List.replicate x.exponent.toNat '0'
    else
      let places := (-x.exponent).toNat
      if places < ds.length then ds.take (ds.length - places) ++ '.' :: ds.drop (ds.length - places)
      else '0' :: '.' :: List.replicate (places - ds.length) '0' ++ ds

/-- The exponent once one digit stands before the point. -/
def leadingExponent (x : Decimal) : Int :=
  if x.digits = 0 then 0 else x.exponent + (characters x.digits).length - 1

/-- The digits with a point after the first one. -/
def mantissa : List Char → List Char
  | [] => []
  | [d] => [d]
  | d :: ds => d :: '.' :: ds

/-- An integer with as many digits as it needs. -/
def exponentText (e : Int) : List Char :=
  signText (decide (e < 0)) ++ characters e.natAbs

/-- An integer with its sign and at least two digits. -/
def paddedExponentText (e : Int) : List Char :=
  let ds := characters e.natAbs
  (if e < 0 then '-' else '+') :: (if ds.length < 2 then '0' :: ds else ds)

end Decimal

namespace Binary64

/-- The text of an infinity or a NaN. -/
def specialText (x : Binary64) : List Char :=
  if x.isNaN then "NaN".toList else Decimal.signText x.isNegative ++ "inf".toList

/-- The shortest digits that read back, written positionally. -/
def plain (x : Binary64) : String :=
  String.ofList (if x.isFinite then (Decimal.shortest x).positional else x.specialText)

/-- The shortest digits that read back, with an exponent. -/
def scientific (x : Binary64) : String :=
  String.ofList <|
    if x.isFinite then
      let d := Decimal.shortest x
      Decimal.signText d.negative ++ Decimal.mantissa (Decimal.characters d.digits) ++
        'e' :: Decimal.exponentText d.leadingExponent
    else x.specialText

/-- The digits of a decimal written with `n` places behind the point: zero has as many digits as
any other number. -/
def paddedDigits (n digits : Nat) : List Char :=
  if digits = 0 then List.replicate (n + 1) '0' else Decimal.characters digits

/-- Fifteen digits and an exponent of at least two digits. -/
def timeStamp (x : Binary64) : String :=
  String.ofList <|
    if x.isFinite then
      let d := Decimal.rounded 14 x
      Decimal.signText d.negative ++ Decimal.mantissa (paddedDigits 14 d.digits) ++
        'e' :: Decimal.paddedExponentText d.leadingExponent
    else x.specialText

end Binary64
end PostRun
