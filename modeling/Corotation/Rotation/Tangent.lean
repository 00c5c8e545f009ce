import Corotation.Space.Matrix
import Corotation.Tolerances

/-!
# The tangent of the exponential map

When the rotation of a rotation vector `θ` moves with the spatial spin `w`, the
vector moves by `spinToVector θ w`, where

    spinToVector θ = I - S(θ) / 2 + η S(θ)².

The derivative of its transpose, applied to a fixed moment, brings in a second
coefficient `μ = η' / |θ|`. Both coefficients are quotients of vanishing
quantities at angle zero and are series below a small angle.
-/

namespace Corotation

open Scalar

namespace Tangent

variable {α : Type} [Scalar α]

/-- The two coefficients of the tangent at an angle. -/
@[ext]
structure Coefficients (α : Type) where
  /-- The coefficient of `S(θ)²`. -/
  eta : α
  /-- Its derivative divided by the angle. -/
  mu : α
deriving Repr

/-- The coefficients as series in the angle. -/
def series (a : α) : Coefficients α :=
  let a2 := a * a
  ⟨1 / 12 + a2 / 720 + a2 * a2 / 30240, 1 / 360 + a2 / 7560 + a2 * a2 / 201600⟩

/-- The fourth power. -/
def fourth (a : α) : α := a * a * (a * a)

/-- The coefficients in closed form. -/
def closed (a : α) : Coefficients α :=
  let s := sin a
  let h := square (sin (a / 2))
  ⟨(2 * s - a * (1 + cos a)) / (2 * a * a * s),
   (a * (a + s) - 8 * h) / (4 * fourth a * h)⟩

/-- The coefficients at an angle: series below the small angle, closed form
above. -/
def coefficients (tol : Tolerances α) (a : α) : Coefficients α :=
  if a < tol.smallAngle then series a else closed a

/-- The closed form is asked for at a finite angle whose fourth power is not
finite. -/
def Overflows (tol : Tolerances α) (a : α) : Prop :=
  ¬ a < tol.smallAngle ∧ IsFinite a ∧ ¬ IsFinite (fourth a)

instance (tol : Tolerances α) (a : α) : Decidable (Overflows tol a) :=
  inferInstanceAs (Decidable (_ ∧ _ ∧ _))

/-- The map from spins to changes of the rotation vector, with the coefficient
given. -/
def spinToVectorWith (eta : α) (theta : Vec3 α) : Mat3 α :=
  let s := Mat3.skew theta
  Mat3.identity - s.scale half + (s * s).scale eta

/-- The map from spatial spins to changes of the rotation vector. -/
def spinToVector (tol : Tolerances α) (theta : Vec3 α) : Mat3 α :=
  spinToVectorWith (coefficients tol theta.norm).eta theta

/-- The stiffness of a moment `m` that is conjugate to the rotation vector: the
map from a spin to the change of the moment conjugate to spins,

    (η (θ mᵀ - 2 m θᵀ + (θ·m) I) + μ S(θ)² m θᵀ - S(m) / 2) (spinToVector θ). -/
def momentStiffness (tol : Tolerances α) (theta m : Vec3 α) : Mat3 α :=
  let k := coefficients tol theta.norm
  let s := Mat3.skew theta
  let h := (Mat3.outer theta m - (Mat3.outer m theta).scale 2
    + Mat3.identity.scale (theta.dot m)).scale k.eta
  let h := h + (Mat3.outer ((s * s).apply m) theta).scale k.mu
  let h := h - (Mat3.skew m).scale half
  h * spinToVector tol theta

end Tangent

end Corotation
