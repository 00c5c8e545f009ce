import Corotation.Element.Linearization
import Corotation.Supplied.Rotation

/-!
# The triad of supplied data

The triad reads the second column of each nodal rotation, so a rotation may have
further columns. Forces and deformations are read slot by slot: those of the
second end must be there, and what comes after them is left out.
-/

namespace Corotation

open Scalar

namespace Supplied

variable {α : Type} [Scalar α]

/-- The second column of a matrix. -/
def secondColumn (m : Grid α) : Except (Failure α) (List α) :=
  match m.shape, m.rows? with
  | [_, n], some rows =>
    if n < 2 then .error (.fault .indexRange)
    else .ok (rows.filterMap fun row => row[1]?)
  | _ :: _ :: _, _ => .error (.fault .shape)
  | _, _ => .error (.fault .indexRange)

/-- The triad of a chord and two nodal rotations. -/
def triad (tol : Tolerances α) (ri rj dx : Grid α) : Except (Failure α) (Triad α) := do
  if SystemVector.normList dx.entries ≤ 0 then .error (.degenerate .collapsedChord)
  let qi ← secondColumn ri
  let qj ← secondColumn rj
  Triad.ofAxes tol ⟨← (Grid.ofList qi).vec3, ← (Grid.ofList qj).vec3⟩ (← dx.vec3)

/-- The triad of a reference chord, both nodes having the reference
orientation. -/
def referenceTriad (tol : Tolerances α) (dX reference : Grid α) :
    Except (Failure α) (Triad α) := do
  if SystemVector.normList dX.entries ≤ 0 then .error (.degenerate .startingChord)
  triad tol reference reference dX

/-- The rotational components of an end within a vector. -/
def rotationOf (p : Grid α) (endIndex : Int) : Except (Failure α) (Grid α) := do
  let span ← Layout.frame.rotation endIndex
  return Grid.ofList (span.select (← p.vector))

/-- The first twelve components of a vector. -/
def slots (p : Grid α) : Except (Failure α) (ElementVector α) :=
  (Grid.ofList (p.entries.take 12)).elementVector

/-- A triad without a length has no linearization. -/
def requireLength (t : Triad α) : Except (Failure α) Unit :=
  if IsZero t.length then .error (.fault .zeroDivisor) else .ok ()

/-- The map from end displacement increments to increments of the local
deformations. -/
def deformationTangent (tol : Tolerances α) (t : Triad α) (ul : Grid α) :
    Except (Failure α) (ElementMatrix α) := do
  requireLength t
  let _ ← spinToVector tol (← rotationOf ul 0)
  let _ ← spinToVector tol (← rotationOf ul 1)
  return t.deformationTangent tol (← slots ul)

/-- A stiffness with the geometric stiffness of a triad added to it. -/
def addGeometricStiffness (tol : Tolerances α) (t : Triad α) (K pl ul : Grid α) :
    Except (Failure α) (ElementMatrix α) := do
  requireLength t
  let _ ← momentStiffness tol (← rotationOf ul 0) (← rotationOf pl 0)
  let K ← K.elementMatrix
  let _ ← momentStiffness tol (← rotationOf ul 1) (← rotationOf pl 1)
  return ElementMatrix.add K (t.geometricStiffness tol (← slots pl) (← slots ul))

end Supplied

end Corotation
