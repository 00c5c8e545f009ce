import Mathlib.Analysis.SpecialFunctions.Complex.Arg
import Mathlib.Analysis.SpecialFunctions.Trigonometric.Bounds
import Mathlib.Topology.Algebra.Module.ModuleTopology
import Corotation.Tolerances
/-!
# The real carrier

Over the real numbers the library is the exact map of its formulas. One
choice is left open: up to which angle a quotient of half-angle sines is
read from its series. At angle zero the series gives the limit, so with
the choice `0` every rotation is exact; with a thousandth of a radian the
arithmetic is that of the double-precision carrier, rounding apart. The
choice is the class `SeriesAngle`, and statements hold for each value they
do not restrict.

Scalars are opened by no module of the theory, so that the signs of the
real numbers are their own. The lemmas here say what the tests and the
derived operations of `Scalar` are in those signs.
-/

namespace Corotation

/-- The angle up to which the quotients of an angle and the sine of its
half are series. -/
class SeriesAngle where
  /-- The angle. -/
  angle : ℝ

/-- Rotations are exact: the series are read at angle zero only, where they
are the limits. -/
@[reducible]
def SeriesAngle.exact : SeriesAngle := ⟨0⟩

/-- The real numbers are scalars. -/
noncomputable instance instScalarReal [S : SeriesAngle] : Scalar ℝ where
  ofNat
    | 0 => 0
    | 1 => 1
    | n + 2 => (n + 2 : ℕ)
  add x y := x + y
  sub x y := x - y
  mul x y := x * y
  div x y := x / y
  neg x := -x
  sqrt := Real.sqrt
  sin := Real.sin
  cos := Real.cos
  tan := Real.tan
  atan2 y x := Complex.arg ⟨x, y⟩
  seriesAngle := S.angle
  le x y := decide (x ≤ y)
  lt x y := decide (x < y)

namespace Scalar

variable [SeriesAngle] {x y : ℝ}

/-- The test `x ≤ y` is the order of the real numbers. -/
@[simp] theorem le_real : @LE.le ℝ instLEScalar x y ↔ x ≤ y := decide_eq_true_iff

/-- The test `x < y` is the strict order of the real numbers. -/
@[simp] theorem lt_real : @LT.lt ℝ instLTScalar x y ↔ x < y := decide_eq_true_iff

/-- The value of a natural number is its cast. -/
theorem ofNat_real (k : ℕ) : (Scalar.ofNat k : ℝ) = k := by
  match k with
  | 0 => exact Nat.cast_zero.symm
  | 1 => exact Nat.cast_one.symm
  | k + 2 => rfl

/-- Equal to zero both ways is zero. -/
@[simp] theorem isZero_real : IsZero x ↔ x = 0 := by
  unfold IsZero
  rw [le_real, le_real]
  exact le_antisymm_iff.symm

/-- Every real number is a number. -/
theorem isNumber_real : IsNumber x := le_real.mpr le_rfl

/-- And every one is finite. -/
theorem isFinite_real : IsFinite x := isZero_real.mpr (sub_self x)

/-- The magnitude is the absolute value. -/
theorem magnitude_real : magnitude x = |x| := by
  unfold magnitude
  split
  · rename_i h
    exact (abs_of_neg (lt_real.mp h)).symm
  · rename_i h
    exact (abs_of_nonneg (not_lt.mp fun h' => h (lt_real.mpr h'))).symm

/-- The larger of two numbers is their maximum. -/
theorem larger_real : larger x y = max x y := by
  unfold larger
  split
  · rename_i h
    exact (max_eq_right (lt_real.mp h).le).symm
  · rename_i h
    exact (max_eq_left (not_lt.mp fun h' => h (lt_real.mpr h'))).symm

/-- One half. -/
@[simp] theorem half_real : (half : ℝ) = 1 / 2 := rfl

end Scalar

end Corotation
