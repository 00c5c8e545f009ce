import Corotation.System.Layout

/-!
# Assembly — scatter-add of element contributions

A system vector has one entry for each component of the model and a system
matrix one for each pair. An element contribution comes with a map from its own
components to those of the system; its entries are added where the map sends
them. A component that occurs twice in a map receives both contributions.
-/

namespace Corotation

open Scalar

/-- A square matrix of a given size, by rows. -/
abbrev Square (n : Nat) (α : Type) := Vector (Vector α n) n

/-- The positions in a system of `n` components that a map names. -/
def resolve {α : Type} (n : Nat) (map : List Int) : Except (Failure α) (List (Fin n)) :=
  map.mapM fun i =>
    match position? n i with
    | some k => .ok k
    | none => .error (.fault .indexRange)

namespace SystemVector

variable {α : Type} [Scalar α] {n : Nat}

/-- The zero vector. -/
def zero : Vector α n := .replicate n 0

/-- The componentwise sum. -/
def add (a b : Vector α n) : Vector α n := Vector.zipWith (· + ·) a b

/-- The componentwise difference. -/
def sub (a b : Vector α n) : Vector α n := Vector.zipWith (· - ·) a b

/-- The vector times a number. -/
def scale (s : α) (a : Vector α n) : Vector α n := a.map (s * ·)

/-- The sum of the products of matching entries. -/
def dotList (a b : List α) : α := (List.zipWith (· * ·) a b).foldl (· + ·) 0

/-- The scalar product. -/
def dot (a b : Vector α n) : α := dotList a.toList b.toList

/-- The length of a list of components. -/
def normList (a : List α) : α := sqrt (dotList a a)

/-- The length. -/
def norm (a : Vector α n) : α := normList a.toList

/-- The vector with one entry sent through a function. -/
def modifyAt {β : Type} (v : Vector β n) (i : Fin n) (f : β → β) : Vector β n :=
  v.set i (f (v.get i)) i.isLt

/-- The vector with a number added to one entry. -/
def addAt (v : Vector α n) (i : Fin n) (x : α) : Vector α n := modifyAt v i (· + x)

/-- The vector with the entries of an element vector added where a map sends
them. -/
def scatter (v : Vector α n) (map : List (Fin n)) (entries : List α) : Vector α n :=
  (map.zip entries).foldl (fun v e => addAt v e.1 e.2) v

/-- The sum of element vectors, each scattered by its map. -/
def assemble (contributions : List (List (Fin n) × List α)) : Vector α n :=
  contributions.foldl (fun v c => scatter v c.1 c.2) zero

/-- The vector with zero at the given positions. -/
def clear (v : Vector α n) (held : List (Fin n)) : Vector α n :=
  held.foldl (fun v i => modifyAt v i fun _ => 0) v

/-- The entries outside the given positions, in order. -/
def without (v : Vector α n) (held : List (Fin n)) : List α :=
  ((List.finRange n).filter fun i => !held.contains i).map v.get

end SystemVector

namespace Square

variable {α : Type} [Scalar α] {n : Nat}

/-- The zero matrix. -/
def zero : Square n α := .replicate n (.replicate n 0)

/-- The matrix applied to a vector. -/
def apply (K : Square n α) (d : Vector α n) : Vector α n := K.map fun row => SystemVector.dot row d

/-- The matrix with the entries of an element matrix added where a map sends
their rows and columns. -/
def scatter (K : Square n α) (map : List (Fin n)) (rows : List (List α)) : Square n α :=
  (map.zip rows).foldl
    (fun K e => SystemVector.modifyAt K e.1 fun row => SystemVector.scatter row map e.2) K

/-- The sum of element matrices, each scattered by its map. -/
def assemble (contributions : List (List (Fin n) × List (List α))) : Square n α :=
  contributions.foldl (fun K c => scatter K c.1 c.2) zero

/-- The rows and columns at the given positions. -/
def block (K : Square n α) (rows columns : List (Fin n)) : List (List α) :=
  rows.map fun i => columns.map fun j => (K.get i).get j

end Square

/-- The system vector with a nodal load added: its components go to consecutive
entries from the first of the node. The load must have as many components as
there are entries for them, or only one, which then goes to each. -/
def addNodalLoad {α : Type} [Scalar α] {n : Nat} (l : Layout) (node : Int) (load : List α)
    (F : Vector α n) : Except (Failure α) (Vector α n) :=
  let base := l.index node 0
  let span : Span := ⟨base, base + load.length⟩
  let targets := span.select (List.finRange n)
  if targets.length = load.length then .ok (SystemVector.scatter F targets load)
  else
    match load with
    | [x] => .ok (SystemVector.scatter F targets (targets.map fun _ => x))
    | _ => .error (.fault .shape)

end Corotation
