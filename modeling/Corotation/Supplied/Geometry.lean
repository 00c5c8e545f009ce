import Corotation.Frame.Geometry
import Corotation.Frame.Section
import Corotation.Supplied.Grid
import Corotation.System.Assembly

/-!
# Reference geometry of supplied data

The operations on chords, orientations and offsets for grids. A chord needs two
points with the same number of coordinates. A vector with two components is taken
as one in the plane for the test on parallel vectors, but the local axes need a
chord in space. Of offsets the first row and the last count.
-/

namespace Corotation

open Scalar

namespace Supplied

variable {α : Type} [Scalar α]

/-- The flags that a document stands for: a whole number, or a number or truth
value equal to one of the named flags. -/
def flags : Document → Except (Failure α) OffsetFlags
  | .int n => .ok (.ofInt n)
  | .bool b => .ok ⟨if b then 1 else 0⟩
  | .real x =>
    if x == 0 then .ok ⟨0⟩ else if x == 1 then .ok ⟨1⟩ else if x == 2 then .ok ⟨2⟩
    else .error (.fault .flags)
  | _ => .error (.fault .flags)

/-- The length of the chord from one point to another, and the chord. -/
def chord (xi xj : Grid α) (element : Label) : Except (Failure α) (α × Grid α) := do
  let dX ← Grid.zipWith (· - ·) xj xi
  let length := SystemVector.normList dX.entries
  if length ≤ 0 then .error (.degenerate (.zeroLength element xi.entries))
  else return (length, dX)

/-- A vector in space or in the plane of the first two axes. -/
def spatial (v : Grid α) : Except (Failure α) (Vec3 α) :=
  match v.vector? with
  | some [x, y] => .ok ⟨x, y, 0⟩
  | some [x, y, z] => .ok ⟨x, y, z⟩
  | _ => .error (.fault .shape)

/-- The reference orientation of a chord. -/
def orientation (tol : Tolerances α) (dX v : Grid α) (element : Label) :
    Except (Failure α) (Mat3 α) := do
  let chord ← spatial dX
  let reference ← spatial v
  match Corotation.orientation tol chord reference element with
  | .error (.degenerate (.parallelReference element _)) =>
    .error (.degenerate (.parallelReference element v.entries))
  | .error e => .error e
  | .ok axes => if dX.entries.length = 3 then return axes else .error (.fault .shape)

/-- Of several rows the first and the last. -/
def outerRows (offsets : Grid α) : Except (Failure α) (Ends (Vec3 α)) :=
  match offsets.shape with
  | [] => .error (.fault .notAList)
  | 0 :: _ => .error (.fault .indexRange)
  | n :: _ =>
    let width := offsets.entries.length / n
    let last := offsets.entries.drop (width * (n - 1))
    match offsets.entries.take width, last with
    | [a, b, c], [d, e, f] => .ok ⟨⟨a, b, c⟩, ⟨d, e, f⟩⟩
    | _, _ => .error (.fault .shape)

/-- The offsets of an element as they are given. -/
def offsetRows (offsets : Option (Grid α)) : Except (Failure α) (Option (Ends (Vec3 α))) :=
  match offsets with
  | none => .ok none
  | some o => (outerRows o).map some

/-- The offsets of an element as global vectors. The nodes are looked at only
when the offsets are relative to them, and the reference vector only when they
are relative to the local axes. -/
def globalOffsets (tol : Tolerances α) (xi xj v : Grid α) (offsets : Option (Grid α))
    (flags : OffsetFlags) (element : Label) : Except (Failure α) (Ends (Vec3 α)) := do
  let o ← offsetRows offsets
  let relative := o.isSome && (flags.isLocal || flags.isNormalized)
  let read (g : Grid α) (needed : Bool) := if needed then g.vec3 else .ok .zero
  let xi ← read xi relative
  let xj ← read xj relative
  let v ← read v (relative && flags.isLocal)
  Corotation.globalOffsets tol xi xj v o flags element

/-- The end points of an element. -/
def endPoints (tol : Tolerances α) (xi xj v : Grid α) (offsets : Option (Grid α))
    (flags : OffsetFlags) (element : Label) : Except (Failure α) (Ends (Vec3 α)) := do
  let o ← offsetRows offsets
  Corotation.endPoints tol (← xi.vec3) (← xj.vec3) (← v.vec3) o flags element

/-- The stiffness of a section in local deformation coordinates. A length of zero
is refused. -/
def sectionStiffness (s : Section α) (length : α) : Except (Failure α) (ElementMatrix α) :=
  if IsZero length then .error (.fault .zeroDivisor) else .ok (s.stiffness length)

end Supplied

end Corotation
