import Corotation.Scalar

/-!
# Double precision — the carrier the program runs on

Arithmetic and the square root round to nearest; the trigonometric functions
are the machine's. Quotients of half-angle sines are series up to a thousandth
of a radian.
-/

namespace Corotation

/-- Double-precision numbers are scalars. -/
instance : Scalar Float where
  ofNat := Float.ofNat
  add := Float.add
  sub := Float.sub
  mul := Float.mul
  div := Float.div
  neg := Float.neg
  sqrt := Float.sqrt
  sin := Float.sin
  cos := Float.cos
  tan := Float.tan
  atan2 := Float.atan2
  seriesAngle := 1e-3
  le x y := decide (x ≤ y)
  lt x y := decide (x < y)

end Corotation
