import Corotation.Transformation.Basic

/-!
# The frame transformation — projection

Local forces and stiffnesses mapped to the nodes. With the map `T` from nodal to
local increments and the link `A` from node to end point increments,

    force      Tᵀ p
    stiffness  Tᵀ k T + Aᵀ K A + K_arm + Σ T_kᵀ p_k tan(θ_k) T_k

where `K` is the geometric stiffness of the triad, `K_arm` has `S(f) S(r)` for
the offset arm `r` and the nodal force `f` of each end, and the sum runs over the
six local rotations.
-/

namespace Corotation

open Scalar

namespace Transformation

variable {ν α : Type} [Scalar α]

/-- Local forces mapped to nodal forces. -/
def pushForce (t : Transformation ν α) (p : ElementVector α) :
    Except (Failure α) (ElementVector α) :=
  t.tangent?.map fun T => ElementMatrix.apply T.transpose p

/-- The stiffness of the turning offset arms for given nodal forces. -/
def armStiffness (arm : Ends (Vec3 α)) (force : ElementVector α) : ElementMatrix α :=
  let o : Mat3 α := .zero
  let part (f r : Vec3 α) : Mat3 α := Mat3.skew f * Mat3.skew r
  ⟨⟨⟨⟨o, o⟩, ⟨o, o⟩⟩, ⟨⟨o, part force.i.lin arm.i⟩, ⟨o, o⟩⟩⟩,
   ⟨⟨⟨o, o⟩, ⟨o, o⟩⟩, ⟨⟨o, o⟩, ⟨o, part force.j.lin arm.j⟩⟩⟩⟩

/-- The local rotation is close to a right angle in some component. -/
def IsNearRightAngle (tol : Tolerances α) (theta : Vec3 α) : Prop :=
  magnitude (cos theta.x) < tol.rightAngleCosine ∨ magnitude (cos theta.y) < tol.rightAngleCosine
    ∨ magnitude (cos theta.z) < tol.rightAngleCosine

instance (tol : Tolerances α) (theta : Vec3 α) : Decidable (IsNearRightAngle tol theta) :=
  inferInstanceAs (Decidable (_ ∨ _ ∨ _))

/-- The remarks on local rotations close to a right angle. -/
def rightAngleNotices (tol : Tolerances α) (tag : Label) (ul : ElementVector α) :
    List (Notice α) :=
  let remark (theta : Vec3 α) (k : Nat) : List (Notice α) :=
    if IsNearRightAngle tol theta then [.nearRightAngle tag theta k] else []
  remark ul.i.rot 0 ++ remark ul.j.rot 1

/-- The weights `p tan θ` of the local rotations, zero in the linear slots. -/
def tangentWeights (p ul : ElementVector α) : ElementVector α :=
  let weight (m theta : Vec3 α) : Vec3 α :=
    ⟨m.x * tan theta.x, m.y * tan theta.y, m.z * tan theta.z⟩
  Ends.zipWith (fun f u => ⟨.zero, weight f.rot u.rot⟩) p ul

/-- The part of the stiffness with the tangents of the local rotations. -/
def tangentTerm (T : ElementMatrix α) (p ul : ElementVector α) : ElementMatrix α :=
  ElementMatrix.mul T.transpose (ElementMatrix.scaleRows (tangentWeights p ul) T)

/-- The stiffness at the nodes but for the term with the tangents of the local
rotations. -/
def consistentStiffness (tol : Tolerances α) (t : Transformation ν α) (T kl : ElementMatrix α)
    (p : ElementVector α) : ElementMatrix α :=
  let material := ElementMatrix.congruence T kl
  let geometric :=
    ElementMatrix.congruence (link t.arm) (t.triad.geometricStiffness tol p t.deformation)
  let arms := armStiffness t.arm (ElementMatrix.apply T.transpose p)
  ElementMatrix.add (ElementMatrix.add material geometric) arms

/-- A local stiffness mapped to the nodal tangent stiffness at given local
forces, with the remarks made on the way. -/
def pushStiffness (tol : Tolerances α) (t : Transformation ν α) (kl : ElementMatrix α)
    (p : ElementVector α) : Except (Failure α) (ElementMatrix α × List (Notice α)) :=
  t.tangent?.map fun T =>
    (ElementMatrix.add (t.consistentStiffness tol T kl p) (tangentTerm T p t.deformation),
     rightAngleNotices tol t.tag t.deformation)

end Transformation

end Corotation
