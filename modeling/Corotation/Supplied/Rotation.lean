import Corotation.Rotation.Tangent
import Corotation.Rotation.Versor
import Corotation.Supplied.Grid
import Corotation.System.Assembly

/-!
# Rotations of supplied data

The operations on rotations for grids. The map of the vector product and the
tangent read the first three components of a vector, and the angle of a rotation
vector is the length of all its components.
-/

namespace Corotation

open Scalar

namespace Supplied

variable {α : Type} [Scalar α]

/-- The first three components of a vector. -/
def leading (v : Grid α) : Except (Failure α) (Vec3 α) :=
  match v.shape, v.entries with
  | [_], x :: y :: z :: _ => .ok ⟨x, y, z⟩
  | n :: _ :: _, _ => .error (.fault (if n < 3 then .indexRange else .shape))
  | _, _ => .error (.fault .indexRange)

/-- The matrix of the vector product. -/
def skew (v : Grid α) : Except (Failure α) (Mat3 α) := (leading v).map Mat3.skew

/-- The rotation matrix of a rotation vector. -/
def rotationMatrix (theta : Grid α) : Except (Failure α) (Mat3 α) :=
  theta.vec3.map Corotation.rotationMatrix

/-- The rotation vector of a rotation matrix. -/
def rotationVector (m : Grid α) : Except (Failure α) (Vec3 α) := do
  Corotation.rotationVector (← m.mat3)

/-- Increments applied to an orientation one after the other. -/
def composeAll (q : Versor α) (increments : List (Grid α)) : Except (Failure α) (Versor α) :=
  increments.foldlM (fun q increment => do Versor.compose (← increment.vec3) q) q

/-- The coefficients of the tangent at an angle. -/
def coefficients (tol : Tolerances α) (angle : α) :
    Except (Failure α) (Tangent.Coefficients α) :=
  if Tangent.Overflows tol angle then .error (.fault .overflow)
  else .ok (Tangent.coefficients tol angle)

/-- The map from spins to changes of a rotation vector. -/
def spinToVector (tol : Tolerances α) (theta : Grid α) : Except (Failure α) (Mat3 α) := do
  let k ← coefficients tol (SystemVector.normList theta.entries)
  return Tangent.spinToVectorWith k.eta (← leading theta)

/-- The stiffness of a moment that is conjugate to a rotation vector. -/
def momentStiffness (tol : Tolerances α) (theta m : Grid α) : Except (Failure α) (Mat3 α) := do
  let _ ← coefficients tol (SystemVector.normList theta.entries)
  let _ ← leading theta
  return Tangent.momentStiffness tol (← theta.vec3) (← m.vec3)

end Supplied

end Corotation
