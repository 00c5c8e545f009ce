import Corotation.Frame.Section
import Corotation.System.Newton
import Corotation.Transformation.Lifecycle
import Corotation.Transformation.Projection

/-!
# Structures

A structure is a set of nodes, numbered from zero, with members between them.
Each member has a transformation of its own and a linear-elastic stiffness at its
reference length, so its local forces are the stiffness times the local
deformations. A structure answers what a nonlinear solver asks: displacements
are set, the response is assembled, and a state is committed or given up.

The members are visited in order. Where one fails, those before it have been
brought up to date and those after it have not.
-/

namespace Corotation

open Scalar

/-- A beam between two of `n` nodes. -/
structure Beam (n : Nat) (α : Type) where
  /-- The name used in messages. -/
  id : Label
  /-- The end nodes. -/
  ends : Ends (Fin n)
  /-- The material and section constants. -/
  profile : Section α
  /-- The reference vector in the local x-z plane. -/
  vecxz : Vec3 α
deriving Repr

/-- A beam of a structure with its transformation and its local stiffness. -/
@[ext]
structure Member (n : Nat) (α : Type) where
  /-- The beam. -/
  beam : Beam n α
  /-- The transformation. -/
  transformation : Transformation (Fin n) α
  /-- The stiffness in local deformation coordinates. -/
  stiffness : ElementMatrix α

/-- Nodes and the members between them. -/
@[ext]
structure Structure (n : Nat) (α : Type) where
  /-- The nodes. -/
  nodes : Vector (Node α) n
  /-- The members. -/
  members : List (Member n α)

namespace Member

variable {α : Type} [Scalar α] {n : Nat}

/-- The forces conjugate to the local deformations. -/
def localForce (m : Member n α) : ElementVector α :=
  ElementMatrix.apply m.stiffness m.transformation.deformation

/-- The system components of the two end nodes. -/
def components (m : Member n α) : List Int :=
  Layout.frame.elementMap [(m.beam.ends.i.val : Int), (m.beam.ends.j.val : Int)]

/-- An operation on the transformation, done within the member. -/
def within (f : Transformation (Fin n) α → Outcome α (Transformation (Fin n) α) Unit)
    (m : Member n α) : Outcome α (Member n α) Unit :=
  let o := f m.transformation
  ⟨{ m with transformation := o.state }, o.notices, o.result⟩

/-- A member for a beam: its transformation bound to the end nodes and
updated. -/
def build (tol : Tolerances α) (nodes : Vector (Node α) n) (beam : Beam n α) :
    Outcome α (Member n α) Unit :=
  let t : Transformation (Fin n) α :=
    .ofConfiguration ⟨beam.id, beam.vecxz, none, .none⟩
  let ends : List (Option (Fin n × Node α)) :=
    beam.ends.toList.map fun k => some (k, nodes.get k)
  let o := (t.attach tol ends).andThen fun t _ => t.update tol fun k => (nodes.get k).trial
  ⟨⟨beam, o.state, beam.profile.stiffness o.state.reference.length⟩, o.notices, o.result⟩

/-- The global stiffness and forces of a member, with the remarks made on the
way. -/
def contribution (tol : Tolerances α) (m : Member n α) :
    Except (Failure α) ((ElementMatrix α × ElementVector α) × List (Notice α)) := do
  let p := m.localForce
  let (k, notices) ← m.transformation.pushStiffness tol m.stiffness p
  let f ← m.transformation.pushForce p
  return ((k, f), notices)

end Member

namespace Structure

variable {α : Type} [Scalar α] {n : Nat}

/-- The members for beams in order, up to the first that cannot be built. A beam
may itself be refused beforehand. -/
def buildMembers (tol : Tolerances α) (nodes : Vector (Node α) n) :
    List (Except (Failure α) (Beam n α)) → Outcome α (List (Member n α)) Unit
  | [] => .ok [] ()
  | .error e :: _ => .fail [] e
  | .ok beam :: rest =>
    let o := Member.build tol nodes beam
    match o.result with
    | .error e => ⟨[], o.notices, .error e⟩
    | .ok () =>
      let o' := buildMembers tol nodes rest
      ⟨o.state :: o'.state, o.notices ++ o'.notices, o'.result⟩

/-- A structure of nodes and beams. -/
def build (tol : Tolerances α) (nodes : Vector (Node α) n)
    (beams : List (Except (Failure α) (Beam n α))) : Outcome α (Structure n α) Unit :=
  let o := buildMembers tol nodes beams
  ⟨⟨nodes, o.state⟩, o.notices, o.result⟩

/-- The trial displacement of a node. -/
def trial (s : Structure n α) (k : Fin n) : Displacement α := (s.nodes.get k).trial

/-- The displacement of a node within a system vector. -/
def displacementAt (d : Vector α (6 * n)) (k : Fin n) : Displacement α :=
  have := k.isLt
  ⟨⟨d[6 * k.val], d[6 * k.val + 1], d[6 * k.val + 2]⟩,
   ⟨d[6 * k.val + 3], d[6 * k.val + 4], d[6 * k.val + 5]⟩⟩

/-- An operation on every transformation, in the order of the members. -/
def onTransformations
    (f : Transformation (Fin n) α → Outcome α (Transformation (Fin n) α) Unit)
    (s : Structure n α) : Outcome α (Structure n α) Unit :=
  let o := Outcome.forEach (Member.within f) s.members
  ⟨{ s with members := o.state }, o.notices, o.result⟩

/-- Every transformation brought up to the trial displacements of the nodes. -/
def updateMembers (tol : Tolerances α) (s : Structure n α) : Outcome α (Structure n α) Unit :=
  s.onTransformations fun t => t.update tol s.trial

/-- The trial displacements written into the nodes, and every transformation
updated. -/
def setTrial (tol : Tolerances α) (d : Vector α (6 * n)) (s : Structure n α) :
    Outcome α (Structure n α) Unit :=
  let nodes := Vector.ofFn fun k => (s.nodes.get k).setTrial (displacementAt d k)
  { s with nodes }.updateMembers tol

/-- The present state accepted. -/
def commit (s : Structure n α) : Outcome α (Structure n α) Unit :=
  { s with nodes := s.nodes.map Node.commit }.onTransformations Transformation.commit

/-- The present state given up for the committed one. -/
def revert (tol : Tolerances α) (s : Structure n α) : Outcome α (Structure n α) Unit :=
  let s := { s with nodes := s.nodes.map Node.revert }
  s.onTransformations fun t => t.revert tol s.trial

/-- The local forces of the members. -/
def localForces (s : Structure n α) : List (ElementVector α) := s.members.map Member.localForce

/-- The stiffness and forces of a member with their places in the system. -/
structure Contribution (n : Nat) (α : Type) where
  /-- The system components of the member. -/
  map : List (Fin n)
  /-- The stiffness. -/
  stiffness : ElementMatrix α
  /-- The forces. -/
  force : ElementVector α

/-- The global contributions of members, up to the first that fails, and the
remarks made until then. -/
def contributions (tol : Tolerances α) :
    List (Member n α) →
      List (Notice α) × Except (Failure α) (List (Contribution (6 * n) α))
  | [] => ([], .ok [])
  | m :: rest =>
    match m.contribution tol with
    | .error e => ([], .error e)
    | .ok ((k, f), notices) =>
      match resolve (6 * n) m.components with
      | .error e => (notices, .error e)
      | .ok map =>
        let (more, result) := contributions tol rest
        (notices ++ more, result.map (⟨map, k, f⟩ :: ·))

/-- The tangent and the resisting forces of the present trial state. -/
def response (tol : Tolerances α) (s : Structure n α) :
    Outcome α (Structure n α) (Response (6 * n) α) :=
  let (notices, result) := contributions tol s.members
  ⟨s, notices, result.map fun parts =>
    ⟨Square.assemble (parts.map fun c => (c.map, ElementMatrix.toRows c.stiffness)),
     SystemVector.assemble (parts.map fun c => (c.map, ElementVector.toList c.force))⟩⟩

/-- The response at a displacement. -/
def responseAt (tol : Tolerances α) (d : Vector α (6 * n)) (s : Structure n α) :
    Outcome α (Structure n α) (Response (6 * n) α) :=
  (s.setTrial tol d).andThen fun s _ => s.response tol

/-- The positions of the nodes in the present trial state. -/
def positions (s : Structure n α) : List (Vec3 α) := s.nodes.toList.map Node.current

/-- A structure as a model for the iteration, with or without its commits and
reverts. -/
def model (tol : Tolerances α) (hooks : Bool) : Model (Structure n α) (6 * n) α where
  respond := responseAt tol
  commit? := if hooks then some commit else none
  revert? := if hooks then some (revert tol) else none

end Structure

end Corotation
