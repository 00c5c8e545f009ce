import Corotation.Element.Slots
import Corotation.Failure
import Corotation.Tolerances

/-!
# The corotational triad

The triad `e = [e1 e2 e3]` follows the rigid motion of an element. It is made
from the deformed chord `dx` and the nodal rotations `Ri`, `Rj`:

    e1 = dx / |dx|
    q  = (second column of Ri + second column of Rj) / 2
    e3 = e1 × q / |e1 × q|
    e2 = e3 × e1

So `q` lies in the plane of `e1` and `e2`. Beside the triad its components of
`q` and of the two nodal y-axes are kept, since the linearization reads them.

A triad that cannot be formed is refused and leaves the former one untouched.
-/

namespace Corotation

open Scalar

/-- The triad of an element with the length of its chord. -/
@[ext]
structure Triad (α : Type) where
  /-- The length of the deformed chord. -/
  length : α
  /-- The rotation with columns `e1`, `e2`, `e3`. -/
  axes : Mat3 α
  /-- The mean nodal y-axis in components of the triad. -/
  mean : Vec3 α
  /-- The nodal y-axes in components of the triad. -/
  nodal : Ends (Vec3 α)
deriving DecidableEq, Repr

namespace Triad

variable {α : Type} [Scalar α]

/-- The triad before any chord was given: the global axes and no length. -/
def unset : Triad α := ⟨0, .identity, .axisY, .both .axisY⟩

instance : Inhabited (Triad α) := ⟨unset⟩

/-- The triad with given axes, chord length and nodal y-axes. -/
def withAxes (length : α) (axes : Mat3 α) (mean : Vec3 α) (nodal : Ends (Vec3 α)) : Triad α :=
  ⟨length, axes, axes.transpose.apply mean, nodal.map axes.transpose.apply⟩

/-- The mean of the nodal y-axes. -/
def meanAxis (nodal : Ends (Vec3 α)) : Vec3 α := (nodal.i + nodal.j).scale half

/-- The triad of a chord and two nodal y-axes. -/
def ofAxes (tol : Tolerances α) (nodal : Ends (Vec3 α)) (dx : Vec3 α) :
    Except (Failure α) (Triad α) :=
  let length := dx.norm
  if length ≤ 0 then .error (.degenerate .collapsedChord)
  else
    let e1 := dx.divide length
    let q := meanAxis nodal
    let n := e1.cross q
    let across := n.norm
    if across ≤ tol.parallel then .error (.degenerate .parallelMeanAxis)
    else
      let e3 := n.divide across
      .ok (withAxes length (.ofColumns e1 (e3.cross e1) e3) q nodal)

/-- The triad of a chord and the nodal rotations. -/
def ofRotations (tol : Tolerances α) (rotation : Ends (Mat3 α)) (dx : Vec3 α) :
    Except (Failure α) (Triad α) :=
  ofAxes tol (rotation.map Mat3.c2) dx

/-- The triad of a reference chord, both nodes having the reference
orientation. -/
def ofReference (tol : Tolerances α) (dX : Vec3 α) (reference : Mat3 α) :
    Except (Failure α) (Triad α) :=
  if dX.norm ≤ 0 then .error (.degenerate .startingChord)
  else ofRotations tol (.both reference) dX

end Triad

end Corotation
