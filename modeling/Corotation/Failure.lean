import Corotation.Space.Vector
import Corotation.Text.Document

/-!
# Failures

Every operation that can be refused says why with a value of `Failure`. The
constructors are causes: a missing node, a geometry without a frame, a query in
the wrong stage, an unstable system, an iteration that did not converge, data of
the wrong form, or an arithmetic fault. The wording of a cause is kept apart, in
`Corotation.Failure.Message`.
-/

namespace Corotation

/-- A geometry in which no triad can be set up. -/
inductive Degeneracy (α : Type) where
  /-- The end points of an element coincide, at the given point. -/
  | zeroLength (element : Label) (point : List α)
  /-- The reference vector of an element is parallel to its chord. -/
  | parallelReference (element : Label) (vector : List α)
  /-- A triad was started from a chord without length. -/
  | startingChord
  /-- The chord handed to a triad has no length. -/
  | collapsedChord
  /-- The mean nodal y-axis is parallel to the chord. -/
  | parallelMeanAxis
  /-- The deformed chord of a transformation has no length. -/
  | deformedLength (tag : Label)
deriving Repr

/-- A load step that was given up. -/
inductive Divergence (α : Type) where
  /-- The tangent was singular in an iteration of a step, by the stated limit on
  the condition number. -/
  | singularTangent (step iteration : Nat) (limit : α)
  /-- The residual of a step stayed above its tolerance; there is none when no
  iteration was allowed. -/
  | notConverged (step : Nat) (iterations : Int) (residual : Option α) (tolerance : α)
deriving Repr

/-- Data of the wrong form. -/
inductive Malformed where
  /-- A reference vector without three components. -/
  | referenceVector (tag : Label)
  /-- Offsets that are not two rows of three, with their shape. -/
  | offsets (tag : Label) (shape : List Nat)
  /-- A nodal displacement without six components, with its shape. -/
  | displacement (node : Label) (shape : List Nat)
  /-- Node ids that are not `0, 1, …`. -/
  | nodeIds
  /-- Rotations asked of nodes with too few components. -/
  | noRotations (perNode : Int)
  /-- An element matrix whose shape does not fit its map. -/
  | elementMatrix (shape : List Nat) (size : Nat)
  /-- An element vector whose shape does not fit its map. -/
  | elementVector (shape : List Nat) (size : Nat)
deriving Repr

/-- An operation that arithmetic or the form of its operands does not allow. -/
inductive Fault where
  /-- A position outside its range. -/
  | indexRange
  /-- Operands whose shapes do not fit together. -/
  | shape
  /-- A matrix whose determinant is not positive, where a rotation is needed. -/
  | notRotation
  /-- A product of versors without a length to divide by. -/
  | nullVersor
  /-- Flags that are not a whole number. -/
  | flags
  /-- A decomposition of a matrix that has none. -/
  | decomposition
  /-- A division by zero. -/
  | zeroDivisor
  /-- A power beyond the range of the numbers. -/
  | overflow
  /-- A number where a list was needed. -/
  | notAList
  /-- A name or id that nothing goes by. -/
  | unknownName
deriving Repr, DecidableEq

/-- Why an operation was refused. -/
inductive Failure (α : Type) where
  /-- A transformation was not given its two nodes. -/
  | missingNode (tag : Label)
  /-- The geometry is degenerate. -/
  | degenerate (cause : Degeneracy α)
  /-- A transformation has not been initialized. -/
  | uninitialized (tag : Label)
  /-- A transformation was not updated since its kinematics last changed. -/
  | outdated (tag : Label)
  /-- The condition number of a system is not below the stated limit. -/
  | unstable (limit : α)
  /-- An iteration did not converge. -/
  | divergence (cause : Divergence α)
  /-- Data of the wrong form. -/
  | malformed (cause : Malformed)
  /-- An arithmetic fault. -/
  | fault (cause : Fault)
deriving Repr

end Corotation
