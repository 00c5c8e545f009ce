import Corotation.Frame.Node
import Corotation.Supplied.Geometry
import Corotation.Transformation.Lifecycle
import Corotation.Transformation.Projection

/-!
# Nodes and transformations of supplied data

A supplied node keeps its displacements as grids, since initial ones are taken as
they come; only a displacement that is set later has to have six components.
Operations of a transformation need nodes whose displacements do.
-/

namespace Corotation

open Scalar

namespace Supplied

variable {α : Type} [Scalar α]

/-! ## Nodes -/

/-- A node whose displacements may have any shape. -/
structure Point (α : Type) where
  /-- The name used in messages. -/
  id : Label
  /-- The reference position. -/
  position : Vec3 α
  /-- The displacement of the current iterate. -/
  trial : Grid α
  /-- The displacement of the last converged state. -/
  committed : Grid α

namespace Point

/-- No displacement. -/
def rest : Grid α := .ofDisplacement .zero

/-- The node with a new trial displacement, which needs six components. -/
def setTrial (d : Grid α) (p : Point α) : Except (Failure α) (Point α) :=
  match d.displacement? with
  | some _ => .ok { p with trial := d }
  | none => .error (.malformed (.displacement p.id d.shape))

/-- The trial displacement less the committed one. -/
def increment (p : Point α) : Except (Failure α) (Grid α) :=
  Grid.zipWith (· - ·) p.trial p.committed

/-- The node with its trial displacement committed. -/
def commit (p : Point α) : Point α := { p with committed := p.trial }

/-- The node back at its committed displacement. -/
def revert (p : Point α) : Point α := { p with trial := p.committed }

/-- The node without displacements. -/
def reset (p : Point α) : Point α := { p with trial := rest, committed := rest }

/-- The node, if its displacements have six components. -/
def node? (p : Point α) : Option (Node α) := do
  return ⟨p.id, p.position, ← p.trial.displacement?, ← p.committed.displacement?⟩

end Point

/-! ## Transformations -/

/-- The configuration with a given reference vector and given offsets. -/
def configuration (tag : Label) (vecxz : Grid α) (offsets : Option (Grid α)) (flags : OffsetFlags) :
    Except (Failure α) (Configuration α) :=
  match vecxz.vec3? with
  | none => .error (.malformed (.referenceVector tag))
  | some v =>
    match offsets with
    | none => .ok ⟨tag, v, none, flags⟩
    | some o =>
      match o.ends? with
      | none => .error (.malformed (.offsets tag o.shape))
      | some e => .ok ⟨tag, v, some e, flags⟩

/-- The offsets of a document, if there is one and it holds something. -/
def offsetsOf : Option Document → Except (Failure Float) (Option (Grid Float))
  | none | some .null => .ok none
  | some rows => (Grid.expect rows.grid?).map some

/-- The flags of a document, none where there is no document. -/
def flagsOf (d : Option Document) : Except (Failure Float) OffsetFlags :=
  d.elim (.ok .none) Supplied.flags

/-- The configuration of a document for each part. The reference vector is looked at before
the offsets, and the offsets before the flags. -/
def configurationOf (tag : Label) (vecxz : Document) (offsets flags : Option Document) :
    Except (Failure Float) (Configuration Float) := do
  let v ← Grid.expect vecxz.grid?
  let _ ← configuration tag v none .none
  let c ← configuration tag v (← offsetsOf offsets) .none
  return { c with flags := ← flagsOf flags }

/-- The configuration that a record describes. Offsets and flags may be missing. -/
def ofRecord (record : Document) : Except (Failure Float) (Configuration Float) := do
  let member (name : String) : Except (Failure Float) Document :=
    match record.get? name with
    | some d => .ok d
    | none => .error (.fault .unknownName)
  configurationOf (← member "name") (← member "vecxz") (record.get? "offsets")
    (record.get? "offset_flags")

variable {ν : Type}

/-- The nodes, if the displacements of each have six components. -/
def nodes? (points : List (Option (ν × Point α))) : Option (List (Option (ν × Node α))) :=
  points.mapM fun
    | none => some none
    | some (name, p) => p.node?.map fun n => some (name, n)

/-- The two end nodes bound. Displacements of another shape are refused when they
are looked at, which is after the geometry was found in order. -/
def attach (tol : Tolerances α) (points : List (Option (ν × Point α)))
    (t : Transformation ν α) : Outcome α (Transformation ν α) Unit :=
  match nodes? points with
  | some nodes => t.attach tol nodes
  | none =>
    let still := points.map (Option.map fun (name, p) => (name, Node.ofPosition p.id p.position))
    let o := t.attach tol still
    match o.result, t.capture with
    | .ok (), .unchecked => .fail t (.fault .shape)
    | _, _ => o

/-- An operation that reads the displacements of the bound nodes. -/
def following (trial : ν → Option (Displacement α))
    (f : (ν → Displacement α) → Transformation ν α → Outcome α (Transformation ν α) Unit)
    (t : Transformation ν α) : Outcome α (Transformation ν α) Unit :=
  match t.bound? with
  | .error e => .fail t e
  | .ok nodes =>
    if (trial nodes.i).isSome && (trial nodes.j).isSome then
      f (fun name => (trial name).getD .zero) t
    else .fail { t with stage := .initialized } (.fault .shape)

/-- Local forces mapped to nodal forces. The columns of a matrix are as many local
forces. -/
def pushForce (t : Transformation ν α) (p : Grid α) : Except (Failure α) (Grid α) := do
  let _ ← t.tangent?
  match p.transpose? with
  | none => return .ofElementVector (← t.pushForce (← p.elementVector))
  | some columns =>
    if p.shape.headD 0 ≠ 12 then .error (.fault .shape)
    let forces ← (← columns.rows).mapM fun column => do
      return ElementVector.toList (← t.pushForce (← (Grid.ofList column).elementVector))
    Grid.expect (Grid.transpose? ⟨columns.shape, forces.flatten⟩)

/-- A local stiffness mapped to the nodal tangent stiffness, with the remarks made
on the way. -/
def pushStiffness (tol : Tolerances α) (t : Transformation ν α) (kl p : Grid α) :
    Except (Failure α) (ElementMatrix α × List (Notice α)) := do
  let _ ← t.tangent?
  t.pushStiffness tol (← kl.elementMatrix) (← p.elementVector)

/-- The forces that a local stiffness makes of the local deformations. -/
def forcesOf (t : Transformation ν α) (kl : Grid α) : Except (Failure α) (Grid α) := do
  return .ofElementVector (ElementMatrix.apply (← kl.elementMatrix) t.deformation)

/-- The diagonal matrix with given entries. -/
def diagonal (entries : List α) : Grid α :=
  let n := entries.length
  .ofRows ((List.range n).map fun i => (List.range n).map fun j =>
    if i = j then entries.getD i 0 else 0)

/-- The rotation matrix of an end, an end below zero being counted from the
second. -/
def nodalRotation (t : Transformation ν α) (endIndex : Int) : Except (Failure α) (Mat3 α) :=
  match position? 2 endIndex with
  | none => .error (.fault .indexRange)
  | some k => .ok (if k = 0 then t.nodalRotation.i else t.nodalRotation.j)

/-- The linear local deformations of an end. -/
def linearOf (t : Transformation ν α) (endIndex : Int) : Grid α :=
  .ofList ((Layout.frame.linear endIndex).select (ElementVector.toList t.deformation))

/-- The local rotation vector of an end. -/
def angularOf (t : Transformation ν α) (endIndex : Int) : Except (Failure α) (Grid α) := do
  let span ← Layout.frame.rotation endIndex
  return .ofList (span.select (ElementVector.toList t.deformation))

end Supplied

end Corotation
