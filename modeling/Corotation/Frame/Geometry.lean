import Corotation.Element.Slots
import Corotation.Failure
import Corotation.Tolerances

/-!
# Reference geometry

The chord of an element, its reference orientation, and its rigid joint offsets.

The orientation is fixed by a reference vector `v` in the local x-z plane:

    e1 = dX / |dX|,   e2 = v × e1 / |v × e1|,   e3 = e1 × e2

so a reference vector parallel to the chord is refused. Offsets are global
vectors from node to end point, unless flags say that they are components along
the local axes of the nodes, or multiples of the distance of the nodes, or both.
-/

namespace Corotation

open Scalar

/-- How the offsets of an element are to be read. Bits beyond the first two have
no meaning but are kept. -/
structure OffsetFlags where
  /-- The flags as a number. -/
  bits : Nat
deriving DecidableEq, Repr

namespace OffsetFlags

/-- Offsets are global vectors. -/
def none : OffsetFlags := ⟨0⟩

/-- Offsets are components along the local axes. -/
def isLocal (f : OffsetFlags) : Bool := f.bits.testBit 0

/-- Offsets are multiples of the distance of the nodes. -/
def isNormalized (f : OffsetFlags) : Bool := f.bits.testBit 1

/-- The number of binary digits of a number. -/
def binaryDigits (n : Nat) : Nat := if n = 0 then 0 else Nat.log2 n + 1

/-- The flags of a whole number. A negative number stands for the bits left when
its complement is taken away: within the two known bits from `-1` to `-4`, and
within as many bits as it needs below. -/
def ofInt : Int → OffsetFlags
  | .ofNat n => ⟨n⟩
  | .negSucc n =>
    let size := n + 1
    if size ≤ 4 then ⟨4 - size⟩ else ⟨max 4 (Nat.pow 2 (binaryDigits size)) - size⟩

end OffsetFlags

variable {α : Type} [Scalar α]

/-- The vector between two distinct points. -/
structure Chord (α : Type) where
  /-- Its length. -/
  length : α
  /-- The vector from the first point to the second. -/
  vector : Vec3 α
deriving Repr

/-- The chord from one point to another. Coinciding points are refused. -/
def chord (xi xj : Vec3 α) (element : Label) : Except (Failure α) (Chord α) :=
  let dX := xj - xi
  let length := dX.norm
  if length ≤ 0 then .error (.degenerate (.zeroLength element xi.toList))
  else .ok ⟨length, dX⟩

/-- The size of the part of the reference vector across a direction below which
they count as parallel. -/
def parallelLimit (tol : Tolerances α) (v : Vec3 α) : α := tol.parallel * larger v.norm 1

/-- The reference orientation of a chord, with the local axes as columns. -/
def orientation (tol : Tolerances α) (dX v : Vec3 α) (element : Label) :
    Except (Failure α) (Mat3 α) :=
  let e1 := dX.divide dX.norm
  let n := v.cross e1
  let across := n.norm
  if across ≤ parallelLimit tol v then
    .error (.degenerate (.parallelReference element v.toList))
  else
    let e2 := n.divide across
    .ok (.ofColumns e1 e2 (e1.cross e2))

/-- The offsets of an element between two nodes as global vectors, from node to
end point. -/
def globalOffsets (tol : Tolerances α) (xi xj v : Vec3 α) (offsets : Option (Ends (Vec3 α)))
    (flags : OffsetFlags) (element : Label) : Except (Failure α) (Ends (Vec3 α)) :=
  match offsets with
  | none => .ok (.both .zero)
  | some o =>
    if flags.isLocal || flags.isNormalized then
      match chord xi xj element with
      | .error e => .error e
      | .ok c =>
        let o := if flags.isNormalized then o.map (Vec3.scale c.length) else o
        if flags.isLocal then (orientation tol c.vector v element).map fun r => o.map r.apply
        else .ok o
    else .ok o

/-- The end points of an element between two nodes. -/
def endPoints (tol : Tolerances α) (xi xj v : Vec3 α) (offsets : Option (Ends (Vec3 α)))
    (flags : OffsetFlags) (element : Label) : Except (Failure α) (Ends (Vec3 α)) :=
  match offsets with
  | none => .ok ⟨xi, xj⟩
  | some _ =>
    (globalOffsets tol xi xj v offsets flags element).map fun o => ⟨xi + o.i, xj + o.j⟩

end Corotation
