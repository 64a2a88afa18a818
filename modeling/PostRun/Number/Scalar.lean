import PostRun.Number.Binary64

/-!
# Scalars

The verification computes with whatever offers the four operations, and with the
sine, cosine and square root where it needs them.  Nothing is assumed of the
operations, so one definition is read in two ways: over the binary64 words it is
the rounded computation, operation by operation in the written order, and over
an exact field it is the mathematics that the rounded computation stands for.
-/

namespace PostRun

/-- The four operations, negation, zero and the natural numbers. -/
class Scalar (α : Type u) extends Add α, Sub α, Mul α, Div α, Neg α where
  zero : α
  ofNat : Nat → α

/-- A scalar with the functions that sampling and the nodes need. -/
class Elementary (α : Type u) extends Scalar α where
  pi : α
  sin : α → α
  cos : α → α
  sqrt : α → α

namespace Scalar

variable {α : Type u} [Scalar α]

/-- The sum from left to right, started at the negative of zero: for words the start decides the
sign of an empty or vanishing sum. -/
def sum (xs : List α) : α := xs.foldl (· + ·) (-zero)

/-- The product from left to right, started at one. -/
def product (xs : List α) : α := xs.foldl (· * ·) (ofNat 1)

/-- One half. -/
def half : α := ofNat 1 / ofNat 2

end Scalar

namespace Binary64

/-- The word as a machine number. -/
def toFloat (x : Binary64) : Float := Float.ofBits x.bits

/-- The word of a machine number. -/
def ofFloat (x : Float) : Binary64 := ⟨x.toBits⟩

/-- The word nearest to a natural number below `2 ^ 64`. -/
def ofNat (n : Nat) : Binary64 := ofFloat n.toUInt64.toFloat

instance : Elementary Binary64 where
  add x y := ofFloat (x.toFloat + y.toFloat)
  sub x y := ofFloat (x.toFloat - y.toFloat)
  mul x y := ofFloat (x.toFloat * y.toFloat)
  div x y := ofFloat (x.toFloat / y.toFloat)
  neg x := ofFloat (-x.toFloat)
  zero := zero
  ofNat := ofNat
  pi := ⟨0x400921FB54442D18⟩
  sin x := ofFloat x.toFloat.sin
  cos x := ofFloat x.toFloat.cos
  sqrt x := ofFloat x.toFloat.sqrt

end Binary64
end PostRun
