import Corotation.Failure
import Corotation.Rotation.Nearest

/-!
# Versors — rotations as unit quaternions

A versor is a quaternion of length one with vector part `(x, y, z)` and scalar
part `w`; it stands for the rotation about `(x, y, z)` by twice the angle whose
cosine is `w`. Versors come from rotation vectors and from matrices, multiply by
the Hamilton product, and give back a matrix or a rotation vector.

The product of two versors turns by the right factor first. So an increment
expressed in the global frame is applied from the left (`compose`).
-/

namespace Corotation

open Scalar

/-- A quaternion standing for a rotation. -/
@[ext]
structure Versor (α : Type) where
  /-- The first component of the vector part. -/
  x : α
  /-- The second component of the vector part. -/
  y : α
  /-- The third component of the vector part. -/
  z : α
  /-- The scalar part. -/
  w : α
deriving DecidableEq, Repr

namespace Versor

variable {α : Type} [Scalar α]

/-- The rotation by no angle. -/
def identity : Versor α := ⟨0, 0, 0, 1⟩

instance : Inhabited (Versor α) := ⟨identity⟩

/-- The vector part. -/
def vector {β : Type} (q : Versor β) : Vec3 β := ⟨q.x, q.y, q.z⟩

/-- The length of the quaternion. -/
def norm (q : Versor α) : α := sqrt (q.x * q.x + q.y * q.y + q.z * q.z + q.w * q.w)

/-- The quaternion divided by a number. -/
def divide (q : Versor α) (s : α) : Versor α := ⟨q.x / s, q.y / s, q.z / s, q.w / s⟩

/-- The quaternion divided by its length. -/
def normalize (q : Versor α) : Versor α := q.divide q.norm

/-! ## Rotation vectors -/

/-- The factor `sin (a / 2) / a` from a rotation vector of length `a` to the
vector part of its versor. -/
def halfSine (a : α) : α :=
  if a ≤ seriesAngle then
    let a2 := a * a
    1 / 2 - a2 / 48 + a2 * a2 / 3840
  else sin (a / 2) / a

/-- The versor of a rotation vector: the axis times the angle. -/
def ofVector (v : Vec3 α) : Versor α :=
  let a := v.norm
  let k := halfSine a
  ⟨k * v.x, k * v.y, k * v.z, cos (a / 2)⟩

/-- The factor `a / sin (a / 2)` from the vector part of a versor to its
rotation vector of length `a`. -/
def inverseHalfSine (a : α) : α :=
  if a ≤ seriesAngle then
    let a2 := a * a
    2 + a2 / 12 + 7 * a2 * a2 / 2880
  else a / sin (a / 2)

/-- Of the two quaternions of a rotation the one whose scalar part is positive;
where that is zero, the one whose first nonzero component is positive. -/
def IsCanonical (q : Versor α) : Prop :=
  ¬ (q.w < 0 ∨ (IsZero q.w ∧ (q.x < 0 ∨ (IsZero q.x ∧ (q.y < 0 ∨ (IsZero q.y ∧ q.z < 0))))))

instance (q : Versor α) : Decidable q.IsCanonical := inferInstanceAs (Decidable (¬ _))

/-- The canonical quaternion of the same rotation. -/
def canonical (q : Versor α) : Versor α :=
  if q.IsCanonical then q else ⟨-q.x, -q.y, -q.z, -q.w⟩

/-- The rotation vector on the principal branch, of length at most half a
turn. -/
def toVector (q : Versor α) : Vec3 α :=
  let c := q.canonical
  let a := 2 * atan2 c.vector.norm c.w
  c.vector.scale (inverseHalfSine a)

/-! ## Products -/

/-- The Hamilton product, not normalized. -/
def hamilton (p q : Versor α) : Versor α :=
  let c := p.vector.cross q.vector
  ⟨p.w * q.x + q.w * p.x + c.x, p.w * q.y + q.w * p.y + c.y, p.w * q.z + q.w * p.z + c.z,
   p.w * q.w - p.x * q.x - p.y * q.y - p.z * q.z⟩

/-- The product of two rotations, the right factor first. A product without a
length is refused. -/
def mul (p q : Versor α) : Except (Failure α) (Versor α) :=
  let r := hamilton p q
  let n := r.norm
  if IsZero n ∨ ¬ IsNumber n then .error (.fault .nullVersor) else .ok (r.divide n)

/-- A rotation increment, expressed in the global frame, applied to an
orientation. -/
def compose (increment : Vec3 α) (q : Versor α) : Except (Failure α) (Versor α) :=
  mul (ofVector increment) q

/-! ## Matrices -/

/-- The rotation matrix. -/
def toMatrix (q : Versor α) : Mat3 α :=
  let xx := q.x * q.x
  let yy := q.y * q.y
  let zz := q.z * q.z
  let ww := q.w * q.w
  let xy := q.x * q.y
  let zw := q.z * q.w
  let xz := q.x * q.z
  let yw := q.y * q.w
  let yz := q.y * q.z
  let xw := q.x * q.w
  ⟨⟨xx - yy - zz + ww, 2 * (xy - zw), 2 * (xz + yw)⟩,
   ⟨2 * (xy + zw), -xx + yy - zz + ww, 2 * (yz - xw)⟩,
   ⟨2 * (xz - yw), 2 * (yz + xw), -xx - yy + zz + ww⟩⟩

/-- The versor of a rotation matrix, by the largest of the three diagonal
entries and the trace; among equals the first, the trace last. -/
def ofRotation (m : Mat3 α) : Versor α :=
  let a := m.r1.x
  let b := m.r2.y
  let c := m.r3.z
  let t := m.trace
  let byX := (⟨1 - t + 2 * a, m.r2.x + m.r1.y, m.r3.x + m.r1.z, m.r3.y - m.r2.z⟩ : Versor α)
  let byY := (⟨m.r1.y + m.r2.x, 1 - t + 2 * b, m.r3.y + m.r2.z, m.r1.z - m.r3.x⟩ : Versor α)
  let byZ := (⟨m.r1.z + m.r3.x, m.r2.z + m.r3.y, 1 - t + 2 * c, m.r2.x - m.r1.y⟩ : Versor α)
  let byTrace := (⟨m.r3.y - m.r2.z, m.r1.z - m.r3.x, m.r2.x - m.r1.y, 1 + t⟩ : Versor α)
  let q :=
    if a < b then
      if b < c then if c < t then byTrace else byZ
      else if b < t then byTrace else byY
    else
      if a < c then if c < t then byTrace else byZ
      else if a < t then byTrace else byX
  q.normalize

/-- The deviation allowed between an entry of `m mᵀ` and the entry `e` of the
identity. -/
def gramTolerance (e : α) : α := 1 / 1000000000000 + 1 / 100000 * magnitude e

/-- The rows of the matrix are orthonormal, up to a small tolerance. -/
def IsOrthonormal (m : Mat3 α) : Prop :=
  let close (x e : α) : Prop := magnitude (x - e) ≤ gramTolerance e
  (close (m.r1.dot m.r1) 1 ∧ close (m.r1.dot m.r2) 0 ∧ close (m.r1.dot m.r3) 0)
    ∧ (close (m.r2.dot m.r1) 0 ∧ close (m.r2.dot m.r2) 1 ∧ close (m.r2.dot m.r3) 0)
    ∧ (close (m.r3.dot m.r1) 0 ∧ close (m.r3.dot m.r2) 0 ∧ close (m.r3.dot m.r3) 1)

instance (m : Mat3 α) : Decidable (IsOrthonormal m) := by
  unfold IsOrthonormal; infer_instance

/-- Every entry is finite. -/
def IsFiniteMatrix (m : Mat3 α) : Prop :=
  ∀ row ∈ m.rows, IsFinite row.x ∧ IsFinite row.y ∧ IsFinite row.z

instance (m : Mat3 α) : Decidable (IsFiniteMatrix m) :=
  inferInstanceAs (Decidable (∀ row ∈ m.rows, _))

/-- The versor of a matrix. A matrix whose determinant is not positive is
refused; one that is not orthonormal is first replaced by the nearest rotation,
which needs finite entries. -/
def ofMatrix (m : Mat3 α) : Except (Failure α) (Versor α) :=
  if m.det ≤ 0 then .error (.fault .notRotation)
  else if IsOrthonormal m then .ok (ofRotation m)
  else if IsFiniteMatrix m then .ok (ofRotation (nearestRotation m))
  else .error (.fault .decomposition)

end Versor

/-- The rotation matrix of a rotation vector. -/
def rotationMatrix {α : Type} [Scalar α] (v : Vec3 α) : Mat3 α := (Versor.ofVector v).toMatrix

/-- The rotation vector of a rotation matrix, on the principal branch. -/
def rotationVector {α : Type} [Scalar α] (m : Mat3 α) : Except (Failure α) (Vec3 α) :=
  (Versor.ofMatrix m).map Versor.toVector

end Corotation
