import Corotation.Structure
import Corotation.Supplied.System
import Corotation.Supplied.Transformation

/-!
# Structures of supplied data

The nodes of a structure are given in any order with ids `0, 1, …`; of several
with one id the last counts, at the place of the first. Displacements are given
to the nodes in that order, and those that come before a failure are set.
-/

namespace Corotation

open Scalar

namespace Supplied

variable {α : Type} [Scalar α]

/-- A beam between nodes named by their ids. -/
structure BeamRecord (α : Type) where
  /-- The name used in messages. -/
  id : Label
  /-- The ids of the end nodes. -/
  ends : Ends Label
  /-- The material and section constants. -/
  profile : Section α
  /-- The reference vector in the local x-z plane. -/
  vecxz : Grid α

/-- A structure with the order in which its nodes were given. -/
structure Assembled (α : Type) where
  /-- The number of nodes. -/
  size : Nat
  /-- The structure. -/
  frame : Structure size α
  /-- The order of the nodes. -/
  order : List (Fin size)

/-- The whole number that an id is. -/
def idNumber? (id : Label) : Option Int :=
  match id with
  | .int n => some n
  | _ => none

/-- An association of nodes with ids after one more node. -/
def place (nodes : List (Int × Point α)) (id : Int) (p : Point α) : List (Int × Point α) :=
  if nodes.any (·.1 == id) then nodes.map fun e => if e.1 == id then (id, p) else e
  else nodes ++ [(id, p)]

/-- Nodes by their ids, in the order in which the ids came up. -/
def byId (points : List (Point α)) : Option (List (Int × Point α)) :=
  points.foldlM (fun nodes p => (idNumber? p.id).map fun id => place nodes id p) []

/-- Nodes in the order of their ids, which must be `0, 1, …`. -/
def inOrder (nodes : List (Int × Point α)) : Option (List (Point α)) :=
  (List.range nodes.length).mapM fun (k : Nat) => (nodes.find? (·.1 == (k : Int))).map (·.2)

/-- A beam of a structure. The reference vector is looked at before the nodes. -/
def beam (n : Nat) (b : BeamRecord α) : Except (Failure α) (Beam n α) := do
  let config ← configuration b.id b.vecxz none .none
  let find (id : Label) : Except (Failure α) (Fin n) :=
    match (idNumber? id).bind (fun k => if 0 ≤ k then position? n k else none) with
    | some k => .ok k
    | none => .error (.fault .unknownName)
  let i ← find b.ends.i
  let j ← find b.ends.j
  return ⟨b.id, ⟨i, j⟩, b.profile, config.vecxz⟩

/-- A structure of nodes and beams, with the remarks made on the way. -/
def assemble (tol : Tolerances α) (points : List (Point α)) (beams : List (BeamRecord α)) :
    List (Notice α) × Except (Failure α) (Assembled α) :=
  match byId points with
  | none => ([], .error (.malformed .nodeIds))
  | some nodes =>
    match inOrder nodes with
    | none => ([], .error (.malformed .nodeIds))
    | some sorted =>
      match sorted.mapM Point.node? with
      | none => ([], .error (.fault .shape))
      | some sorted =>
        let vector : Vector (Node α) sorted.length := ⟨sorted.toArray, by simp⟩
        let o := Structure.build tol vector (beams.map (beam sorted.length))
        let order := nodes.filterMap fun e => position? sorted.length e.1
        (o.notices, o.result.map fun _ => ⟨sorted.length, o.state, order⟩)

namespace Assembled

/-- An operation on the structure. -/
def run {β : Type} (a : Assembled α)
    (f : Structure a.size α → Outcome α (Structure a.size α) β) : Outcome α (Assembled α) β :=
  let o := f a.frame
  ⟨{ a with frame := o.state }, o.notices, o.result⟩

/-- The failure to cut the displacement of a node out of a grid. -/
def cutFailure (d : Grid α) (id : Label) (k : Nat) : Failure α :=
  match d.shape with
  | rows :: extent :: more =>
    if 6 * k + 6 ≤ rows then .malformed (.displacement id (6 :: extent :: more))
    else .fault .indexRange
  | _ => .fault .indexRange

/-- The displacement of a node within a vector, if the vector is long enough. -/
def cut? (d : Grid α) (k : Nat) : Option (Displacement α) :=
  (d.vector?.map fun xs => Grid.ofList ((xs.drop (6 * k)).take 6)).bind Grid.displacement?

/-- The trial displacements written into the nodes one after the other, up to the
first that a vector is too short for. -/
def writeTrial {n : Nat} (d : Grid α) :
    List (Fin n) → Vector (Node α) n → Vector (Node α) n × Except (Failure α) Unit
  | [], nodes => (nodes, .ok ())
  | k :: rest, nodes =>
    match cut? d k.val with
    | none => (nodes, .error (cutFailure d (nodes.get k).id k.val))
    | some u => writeTrial d rest (SystemVector.modifyAt nodes k (Node.setTrial u))

/-- The trial displacements written into the nodes, and every transformation
updated. A vector may be longer than needed. -/
def setTrial (tol : Tolerances α) (d : Grid α) (a : Assembled α) : Outcome α (Assembled α) Unit :=
  match d.vector? with
  | some xs =>
    if 6 * a.size ≤ xs.length then a.run fun s => s.setTrial tol (padded (6 * a.size) xs)
    else
      let (nodes, result) := writeTrial d a.order a.frame.nodes
      ⟨{ a with frame := { a.frame with nodes } }, [], result⟩
  | none =>
    let (nodes, result) := writeTrial d a.order a.frame.nodes
    ⟨{ a with frame := { a.frame with nodes } }, [], result⟩

/-- The tangent and the resisting forces of the present trial state. -/
def response (tol : Tolerances α) (a : Assembled α) :
    Outcome α (Assembled α) (Response (6 * a.size) α) :=
  a.run fun s => s.response tol

/-- The load vector of nodal loads. -/
def loadVector (a : Assembled α) (loads : List (Int × Grid α)) :
    Except (Failure α) (Vector α (6 * a.size)) :=
  loads.foldlM (fun F (node, load) => addNodalLoad Layout.frame node load F) SystemVector.zero

end Assembled

end Supplied

end Corotation
