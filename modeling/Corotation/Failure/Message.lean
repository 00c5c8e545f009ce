import Corotation.Outcome
import Corotation.Text.Written

/-!
# The wording of failures and notices

One function for each kind of cause. Points are written as tuples of numbers,
residuals and tolerances with two decimals and an exponent, limits on condition
numbers with one digit and an exponent. The condition number itself is not
written. Arithmetic faults have no wording.
-/

namespace Corotation

/-- Items between parentheses, a single one with a comma after it. -/
def tupleText (items : List String) : String :=
  match items with
  | [item] => "(" ++ item ++ ",)"
  | _ => "(" ++ ", ".intercalate items ++ ")"

/-- A point as a tuple of numbers. -/
def pointText (point : List Float) : String := tupleText (point.map Number.shortest)

/-- A shape as a tuple of extents. -/
def shapeText (shape : List Nat) : String := tupleText (shape.map toString)

/-- The wording of a degenerate geometry. -/
def Degeneracy.message : Degeneracy Float → String
  | .zeroLength element point =>
    "Element " ++ element.plain ++ " has zero length (end points at " ++ pointText point ++ ")"
  | .parallelReference element vector =>
    "Element " ++ element.plain ++ ": reference vector " ++ pointText vector
      ++ " is parallel to the chord"
  | .startingChord => "Isometry initialized with a zero-length chord"
  | .collapsedChord => "Deformed chord length is zero"
  | .parallelMeanAxis => "Mean nodal y-axis is parallel to the chord"
  | .deformedLength tag => "Transform " ++ tag.plain ++ ": deformed length is zero"

/-- The wording of an unstable system. -/
def unstableMessage (limit : Float) : String :=
  "Unstable system (cond=*). Check supports. Need cond < " ++ Number.scientific 0 limit ++ "."

/-- The wording of a load step that was given up. -/
def Divergence.message : Divergence Float → String
  | .singularTangent step iteration limit =>
    "Tangent became singular at load step " ++ toString step ++ ", iteration "
      ++ toString iteration ++ ". " ++ unstableMessage limit
  | .notConverged step iterations residual tolerance =>
    let residualText := (residual.map (Number.scientific 2)).getD "inf"
    "Load step " ++ toString step ++ " did not converge after " ++ toString iterations
      ++ " iterations. Final residual: " ++ residualText ++ ", tolerance: "
      ++ Number.scientific 2 tolerance

/-- The wording of data of the wrong form. -/
def Malformed.message : Malformed → String
  | .referenceVector tag => "Transform " ++ tag.plain ++ ": vecxz must have 3 components"
  | .offsets tag shape =>
    "Transform " ++ tag.plain ++ ": expected 2 offsets of 3 components, got shape "
      ++ shapeText shape
  | .displacement node shape =>
    "Node " ++ node.plain ++ ": expected 6 displacement components, got " ++ shapeText shape
  | .nodeIds => "Node ids must be consecutive integers starting at 0"
  | .noRotations perNode => "Nodes with " ++ toString perNode ++ " DOFs carry no rotations."
  | .elementMatrix shape size =>
    "Element matrix shape " ++ shapeText shape ++ " doesn't match dof_map length "
      ++ toString size
  | .elementVector shape size =>
    "Element vector shape " ++ shapeText shape ++ " doesn't match dof_map length "
      ++ toString size

/-- The wording of a failure, if it has one. -/
def Failure.message? : Failure Float → Option String
  | .missingNode tag => some ("Transform " ++ tag.plain ++ ": invalid node references")
  | .degenerate cause => some cause.message
  | .uninitialized tag =>
    some ("Transform " ++ tag.plain ++ ": initialize() has not been called")
  | .outdated tag =>
    some ("Transform " ++ tag.plain
      ++ ": update() must run before projecting forces or stiffness")
  | .unstable limit => some (unstableMessage limit)
  | .divergence cause => some cause.message
  | .malformed cause => some cause.message
  | .fault _ => none

/-- A remark that asks for attention, and not only for the record. -/
def Notice.isWarning {α : Type} : Notice α → Bool
  | .nearRightAngle .. => true
  | _ => false

/-- The wording of a remark. -/
def Notice.message : Notice Float → String
  | .captured tag => "Transform " ++ tag.plain ++ ": captured initial nodal displacements"
  | .nearRightAngle tag rotation endIndex =>
    "Transform " ++ tag.plain ++ ": local rotation "
      ++ (Document.list (rotation.toList.map Document.real)).plain ++ " at end "
      ++ toString endIndex ++ " is close to ±pi/2"
  | .converged step steps iterations =>
    let factor := Float.ofNat step / Float.ofNat steps
    "Load step " ++ toString step ++ "/" ++ toString steps ++ " (lambda="
      ++ Number.fixed 3 factor ++ ") converged in " ++ toString iterations ++ " iterations"

end Corotation
