import Corotation.Element.Slots
import Corotation.Text.Document

/-!
# Nodes

A node is a point with six degrees of freedom. It reports total displacements,
accumulated since the start of the analysis: the trial value of the current
iterate and the committed value of the last converged state. The rotational part
is the running sum of the rotation increments, and not the rotation vector of
the finite rotation.
-/

namespace Corotation

open Scalar

/-- A point with trial and committed displacements. -/
@[ext]
structure Node (α : Type) where
  /-- The name used in messages. -/
  id : Label
  /-- The reference position. -/
  position : Vec3 α
  /-- The displacement of the current iterate. -/
  trial : Displacement α
  /-- The displacement of the last converged state. -/
  committed : Displacement α
deriving Repr

namespace Node

variable {α : Type} [Scalar α]

/-- A node that was not displaced. -/
def ofPosition (id : Label) (position : Vec3 α) : Node α := ⟨id, position, .zero, .zero⟩

instance : Inhabited (Node α) := ⟨ofPosition .null .zero⟩

/-- The node with a new trial displacement. -/
def setTrial (d : Displacement α) (n : Node α) : Node α := { n with trial := d }

/-- The trial displacement less the committed one. -/
def increment (n : Node α) : Displacement α := Displacement.sub n.trial n.committed

/-- The node with its trial displacement committed. -/
def commit (n : Node α) : Node α := { n with committed := n.trial }

/-- The node back at its committed displacement. -/
def revert (n : Node α) : Node α := { n with trial := n.committed }

/-- The node without displacements. -/
def reset (n : Node α) : Node α := { n with trial := .zero, committed := .zero }

/-- The position of the current iterate. -/
def current (n : Node α) : Vec3 α := n.position + n.trial.lin

end Node

end Corotation
