/-!
# Scalars — the arithmetic the kinematics is written in

Every kinematic formula of the library is written once, over any type that
carries the operations below: the four arithmetic operations, the square root,
four trigonometric functions, two order tests, and the angle from which on a
quotient of these functions is trusted. No law is assumed, so one definition
serves two carriers. In double precision it is the program that
runs; over the real numbers it is the exact map whose derivatives and
invariants can be stated.

The operations are reached through the usual signs once `Scalar` is opened. The
instances behind the signs are scoped to that namespace, so that a carrier with
signs of its own keeps them everywhere else.
-/

namespace Corotation

/-- The operations of a number type. The order tests answer `false` on a value
that is not a number, so `x ≤ y` and `y < x` may both fail. -/
class Scalar (α : Type) where
  /-- The value of a natural number. -/
  ofNat : Nat → α
  /-- Addition. -/
  add : α → α → α
  /-- Subtraction. -/
  sub : α → α → α
  /-- Multiplication. -/
  mul : α → α → α
  /-- Division. -/
  div : α → α → α
  /-- Negation. -/
  neg : α → α
  /-- The square root. -/
  sqrt : α → α
  /-- The sine. -/
  sin : α → α
  /-- The cosine. -/
  cos : α → α
  /-- The tangent. -/
  tan : α → α
  /-- The angle of the point with the second argument as abscissa and the
  first as ordinate. -/
  atan2 : α → α → α
  /-- The angle up to which the quotients of an angle and the sine of its half
  are taken as series. Zero leaves the series only where the quotients are not
  defined. -/
  seriesAngle : α
  /-- The test `x ≤ y`. -/
  le : α → α → Bool
  /-- The test `x < y`. -/
  lt : α → α → Bool

namespace Scalar

variable {α : Type} [Scalar α]

scoped instance instOfNatScalar (n : Nat) : OfNat α n := ⟨Scalar.ofNat n⟩
scoped instance instAddScalar : Add α := ⟨Scalar.add⟩
scoped instance instSubScalar : Sub α := ⟨Scalar.sub⟩
scoped instance instMulScalar : Mul α := ⟨Scalar.mul⟩
scoped instance instDivScalar : Div α := ⟨Scalar.div⟩
scoped instance instNegScalar : Neg α := ⟨Scalar.neg⟩
scoped instance instLEScalar : LE α := ⟨fun x y => Scalar.le x y = true⟩
scoped instance instLTScalar : LT α := ⟨fun x y => Scalar.lt x y = true⟩
scoped instance instInhabitedScalar : Inhabited α := ⟨0⟩

scoped instance instDecidableLEScalar (x y : α) : Decidable (x ≤ y) :=
  inferInstanceAs (Decidable (Scalar.le x y = true))

scoped instance instDecidableLTScalar (x y : α) : Decidable (x < y) :=
  inferInstanceAs (Decidable (Scalar.lt x y = true))

/-- The square of a number. -/
def square (x : α) : α := x * x

/-- The absolute value. -/
def magnitude (x : α) : α := if x < 0 then -x else x

/-- The first argument, unless the second is larger. -/
def larger (x y : α) : α := if x < y then y else x

/-- Equal to zero; either sign of zero counts, and a value that is not a
number does not. -/
def IsZero (x : α) : Prop := x ≤ 0 ∧ 0 ≤ x

instance (x : α) : Decidable (IsZero x) := inferInstanceAs (Decidable (_ ∧ _))

/-- A value is a number when it compares with itself. -/
def IsNumber (x : α) : Prop := x ≤ x

instance (x : α) : Decidable (IsNumber x) := inferInstanceAs (Decidable (x ≤ x))

/-- A value is finite when it cancels against itself. -/
def IsFinite (x : α) : Prop := IsZero (x - x)

instance (x : α) : Decidable (IsFinite x) := inferInstanceAs (Decidable (IsZero _))

/-- One half. -/
def half : α := 1 / 2

end Scalar

end Corotation
