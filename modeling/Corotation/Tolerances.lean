import Corotation.Scalar

/-!
# Tolerances

The numerical thresholds that the kinematics and the iteration consult. They are
one record, passed explicitly, so a result depends on nothing but its arguments.
-/

namespace Corotation

open Scalar

/-- The numerical thresholds. -/
structure Tolerances (α : Type) where
  /-- A reference vector whose component across the chord is at most this is
  parallel to it. -/
  parallel : α
  /-- Below this angle the coefficients of the rotation tangent are series. -/
  smallAngle : α
  /-- A local rotation whose cosine is smaller than this in magnitude is
  reported as close to a right angle. -/
  rightAngleCosine : α
  /-- The relative size of a residual that counts as converged. -/
  residual : α
  /-- The number of iterations allowed in a load step. -/
  iterations : Int

/-- The thresholds in force when nothing else is asked for. -/
def Tolerances.standard {α : Type} [Scalar α] : Tolerances α where
  parallel := 1 / 1000000000000
  smallAngle := 1 / 20
  rightAngleCosine := 1 / 100
  residual := 1 / 1000000000
  iterations := 25

end Corotation
