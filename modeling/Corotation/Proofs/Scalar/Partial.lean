import Mathlib.Analysis.SpecialFunctions.Complex.Arg
import Corotation.Tolerances
/-!
# Real numbers with an undefined value

Here an operation may have no result. A quotient with denominator zero and the square root
of a negative number are undefined, and so is all that is computed from an undefined value.
Such a value compares with nothing, itself included. That is how data that are not numbers
behave in double precision; the real numbers by themselves have no such value.
-/

namespace Corotation

/-- A real number, or no number at all. -/
inductive PartialReal where
  /-- A real number. -/
  | number (x : ℝ)
  /-- The value of an operation without a result. -/
  | undefined

namespace PartialReal

/-- A function of one number. -/
def lift (f : ℝ → ℝ) : PartialReal → PartialReal
  | number x => number (f x)
  | undefined => undefined

/-- A function of two numbers. -/
def lift₂ (f : ℝ → ℝ → ℝ) : PartialReal → PartialReal → PartialReal
  | number x, number y => number (f x y)
  | _, _ => undefined

/-- A quotient, if the denominator is not zero. -/
noncomputable def quotient : PartialReal → PartialReal → PartialReal
  | number x, number y => if y = 0 then undefined else number (x / y)
  | _, _ => undefined

/-- A square root, unless the number is negative. -/
noncomputable def root : PartialReal → PartialReal
  | number x => if x < 0 then undefined else number (Real.sqrt x)
  | undefined => undefined

/-- A test on two numbers, which fails where one is undefined. -/
def test (r : ℝ → ℝ → Bool) : PartialReal → PartialReal → Bool
  | number x, number y => r x y
  | _, _ => false

/-- Real numbers with an undefined value are scalars. -/
noncomputable instance : Scalar PartialReal where
  ofNat n := number n
  add := lift₂ (· + ·)
  sub := lift₂ (· - ·)
  mul := lift₂ (· * ·)
  div := quotient
  neg := lift (- ·)
  sqrt := root
  sin := lift Real.sin
  cos := lift Real.cos
  tan := lift Real.tan
  atan2 := lift₂ fun y x => Complex.arg ⟨x, y⟩
  seriesAngle := number 0
  le := test fun x y => decide (x ≤ y)
  lt := test fun x y => decide (x < y)

section Laws

open Scalar

variable (x y : ℝ) (u : PartialReal)

@[simp] theorem ofNat_eq (n : ℕ) : @OfNat.ofNat PartialReal n (instOfNatScalar n) = number n := rfl

@[simp] theorem add_number : number x + number y = number (x + y) := rfl

@[simp] theorem sub_number : number x - number y = number (x - y) := rfl

@[simp] theorem mul_number : number x * number y = number (x * y) := rfl

@[simp] theorem neg_number : -number x = number (-x) := rfl

theorem sqrt_number {x : ℝ} (h : 0 ≤ x) : sqrt (number x) = number (Real.sqrt x) :=
  if_neg (not_lt.mpr h)

@[simp] theorem le_number : number x ≤ number y ↔ x ≤ y := decide_eq_true_iff

@[simp] theorem lt_number : number x < number y ↔ x < y := decide_eq_true_iff

@[simp] theorem add_undefined : u + undefined = undefined := by cases u <;> rfl

@[simp] theorem undefined_add : undefined + u = undefined := rfl

@[simp] theorem sub_undefined : u - undefined = undefined := by cases u <;> rfl

@[simp] theorem undefined_sub : undefined - u = undefined := rfl

@[simp] theorem mul_undefined : u * undefined = undefined := by cases u <;> rfl

@[simp] theorem undefined_mul : undefined * u = undefined := rfl

@[simp] theorem div_undefined : u / undefined = undefined := by cases u <;> rfl

@[simp] theorem undefined_div : undefined / u = undefined := rfl

@[simp] theorem neg_undefined : -undefined = undefined := rfl

@[simp] theorem sqrt_undefined : sqrt undefined = undefined := rfl

/-- An undefined value is at most nothing, and nothing is at most it. -/
@[simp] theorem not_le_undefined : ¬ u ≤ undefined := by cases u <;> exact Bool.false_ne_true

@[simp] theorem not_undefined_le : ¬ undefined ≤ u := Bool.false_ne_true

@[simp] theorem not_lt_undefined : ¬ u < undefined := by cases u <;> exact Bool.false_ne_true

@[simp] theorem not_undefined_lt : ¬ undefined < u := Bool.false_ne_true

end Laws

end PartialReal

end Corotation
