import Corotation.Element.Linearization
import Corotation.Frame.Geometry
import Corotation.Outcome
import Corotation.Rotation.Versor

/-!
# The frame transformation — its state

A transformation stands between a solver, which moves nodes through large
displacements, and a section model, which knows small deformations in a frame
that follows the element. This module holds its state and what can be read from
it; `Corotation.Transformation.Lifecycle` holds the operations that change it.

A transformation names its two nodes by values of a type `ν` and does not hold
them: whoever calls an operation says what the nodes report at that moment.
-/

namespace Corotation

open Scalar

/-- Where a transformation is in its lifecycle. -/
inductive Stage where
  /-- No reference geometry yet. -/
  | uninitialized
  /-- The reference geometry is set; the kinematics is not that of the nodes. -/
  | initialized
  /-- Deformations, lengths and tangent are those of the last update. -/
  | current
deriving DecidableEq, Repr

/-- The one-time capture of displacements found at initialization. -/
inductive Capture where
  /-- Not looked for yet. -/
  | unchecked
  /-- There were none. -/
  | none
  /-- They were found, and are taken away from every later report. -/
  | captured
deriving DecidableEq, Repr

/-- What a transformation is made from. -/
@[ext]
structure Configuration (α : Type) where
  /-- The name used in messages and records. -/
  tag : Label
  /-- The reference vector in the local x-z plane. -/
  vecxz : Vec3 α
  /-- The rigid joint offsets, if any. -/
  offsets : Option (Ends (Vec3 α))
  /-- How the offsets are to be read. -/
  flags : OffsetFlags
deriving Repr

/-- The undeformed geometry of an element between its end points. -/
@[ext]
structure Reference (α : Type) where
  /-- The length of the chord. -/
  length : α
  /-- The chord. -/
  chord : Vec3 α
  /-- The orientation, with the local axes as columns. -/
  axes : Mat3 α
  /-- The offsets from node to end point as global vectors. -/
  offset : Ends (Vec3 α)
deriving Repr

/-- The corotational transformation of an element between two nodes named by
values of type `ν`. -/
@[ext]
structure Transformation (ν α : Type) where
  /-- What it was made from. -/
  config : Configuration α
  /-- The names of the bound nodes. -/
  nodes : Option (Ends ν)
  /-- The place in the lifecycle. -/
  stage : Stage
  /-- Whether initial displacements were captured. -/
  capture : Capture
  /-- The captured displacements, zero when there are none. -/
  initial : Ends (Displacement α)
  /-- The undeformed geometry. -/
  reference : Reference α
  /-- The length of the deformed chord. -/
  deformedLength : α
  /-- The offsets as carried along by the nodal rotations. -/
  arm : Ends (Vec3 α)
  /-- The corotational triad. -/
  triad : Triad α
  /-- The nodal rotation components last seen. -/
  seen : Ends (Vec3 α)
  /-- The nodal orientations. -/
  versor : Ends (Versor α)
  /-- The nodal orientations of the committed state. -/
  committedVersor : Ends (Versor α)
  /-- The local deformations. -/
  deformation : ElementVector α
  /-- The local deformations before the last update. -/
  previous : ElementVector α
  /-- The local deformations of the committed state. -/
  committed : ElementVector α
  /-- The map from nodal to local increments, once an update has run. -/
  tangent : Option (ElementMatrix α)
deriving Repr

namespace Transformation

variable {ν α : Type} [Scalar α]

/-- A transformation before it is initialized. -/
def ofConfiguration (config : Configuration α) : Transformation ν α where
  config
  nodes := none
  stage := .uninitialized
  capture := .unchecked
  initial := .both .zero
  reference := ⟨0, .zero, .identity, .both .zero⟩
  deformedLength := 0
  arm := .both .zero
  triad := .unset
  seen := .both .zero
  versor := .both .identity
  committedVersor := .both .identity
  deformation := .zero
  previous := .zero
  committed := .zero
  tangent := none

/-- The name used in messages and records. -/
def tag (t : Transformation ν α) : Label := t.config.tag

/-- The current corotational basis. -/
def rotation (t : Transformation ν α) : Mat3 α := t.triad.axes

/-- The rotation matrices of the nodes. -/
def nodalRotation (t : Transformation ν α) : Ends (Mat3 α) := t.versor.map Versor.toMatrix

/-- The change of the local deformations in the last update. -/
def variation (t : Transformation ν α) : ElementVector α :=
  ElementVector.sub t.deformation t.previous

/-- What nodes report, less what was captured. -/
def displacement (t : Transformation ν α) (trial : Ends (Displacement α)) :
    Ends (Displacement α) :=
  trial.zipWith Displacement.sub t.initial

/-- The map from node increments to end point increments for given offset
arms. -/
def link (arm : Ends (Vec3 α)) : ElementMatrix α :=
  let o : Mat3 α := .zero
  let e : Mat3 α := .identity
  ⟨⟨⟨⟨e, -(Mat3.skew arm.i)⟩, ⟨o, o⟩⟩, ⟨⟨o, e⟩, ⟨o, o⟩⟩⟩,
   ⟨⟨⟨o, o⟩, ⟨e, -(Mat3.skew arm.j)⟩⟩, ⟨⟨o, o⟩, ⟨o, e⟩⟩⟩⟩

/-- The failure of a query that needs a later stage than the present one. -/
def outOfStage (t : Transformation ν α) : Failure α :=
  if t.stage = .uninitialized then .uninitialized t.tag else .outdated t.tag

/-- The map from nodal to local increments. It is there in the stage `current`
only. -/
def tangent? (t : Transformation ν α) : Except (Failure α) (ElementMatrix α) :=
  match t.stage, t.tangent with
  | .current, some T => .ok T
  | _, _ => .error t.outOfStage

end Transformation

end Corotation
