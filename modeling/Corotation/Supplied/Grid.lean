import Corotation.Element.Slots
import Corotation.Failure
import Corotation.Text.Decimal

/-!
# Grids — numeric data whose shape is not known beforehand

Data that come from outside are rectangular grids of numbers: single numbers,
vectors, matrices, and so on. A grid has an extent in each direction and its
entries in order, the last direction running fastest. Typed values are taken
from grids of the right shape, and all other grids are refused.

Lists whose items differ in shape are no grid.
-/

namespace Corotation

/-- A rectangular grid of numbers. -/
@[ext]
structure Grid (α : Type) where
  /-- The extent in each direction. -/
  shape : List Nat
  /-- The entries, the last direction running fastest. -/
  entries : List α
deriving DecidableEq, Repr

namespace Grid

variable {α : Type}

/-- A single number. -/
def ofNumber (x : α) : Grid α := ⟨[], [x]⟩

/-- A vector. -/
def ofList (xs : List α) : Grid α := ⟨[xs.length], xs⟩

/-- A matrix, given by rows of equal length. -/
def ofRows (rows : List (List α)) : Grid α :=
  ⟨[rows.length, (rows.headD []).length], rows.flatten⟩

/-- A vector in space. -/
def ofVec3 (v : Vec3 α) : Grid α := ofList v.toList

/-- A three-by-three matrix. -/
def ofMat3 (m : Mat3 α) : Grid α := ofRows (m.rows.map Vec3.toList)

/-- A vector over the slots of an element. -/
def ofElementVector (p : ElementVector α) : Grid α := ofList (ElementVector.toList p)

/-- A matrix over the slots of an element. -/
def ofElementMatrix (a : ElementMatrix α) : Grid α := ofRows (ElementMatrix.toRows a)

/-- The displacement of a node. -/
def ofDisplacement (d : Displacement α) : Grid α := ofList (d.lin.toList ++ d.rot.toList)

/-- Grids of one shape, put into a row. -/
def ofItems (items : List (Grid α)) : Option (Grid α) :=
  match items with
  | [] => some ⟨[0], []⟩
  | g :: _ =>
    if items.all (·.shape == g.shape) then
      some ⟨items.length :: g.shape, items.flatMap Grid.entries⟩
    else none

/-- Rows of the given width. -/
def cut (width : Nat) : Nat → List α → List (List α)
  | 0, _ => []
  | n + 1, xs => xs.take width :: cut width n (xs.drop width)

/-- The rows of a matrix. -/
def rows? (g : Grid α) : Option (List (List α)) :=
  match g.shape with
  | [m, n] => some (cut n m g.entries)
  | _ => none

/-- A matrix with rows and columns exchanged. -/
def transpose? (g : Grid α) : Option (Grid α) :=
  match g.shape, g.rows? with
  | [m, n], some rows =>
    some ⟨[n, m], (List.range n).flatMap fun j => rows.filterMap fun row => row[j]?⟩
  | _, _ => none

/-- The components of a vector. -/
def vector? (g : Grid α) : Option (List α) :=
  match g.shape with
  | [_] => some g.entries
  | _ => none

/-- The failure of an operation on a grid of the wrong shape. -/
def expect {β : Type} (value : Option β) : Except (Failure α) β :=
  match value with
  | some b => .ok b
  | none => .error (.fault .shape)

/-- The components of a vector. -/
def vector (g : Grid α) : Except (Failure α) (List α) := expect g.vector?

/-- The rows of a matrix. -/
def rows (g : Grid α) : Except (Failure α) (List (List α)) := expect g.rows?

/-- A vector in space. -/
def vec3? (g : Grid α) : Option (Vec3 α) :=
  match g.vector? with
  | some [x, y, z] => some ⟨x, y, z⟩
  | _ => none

/-- A three-by-three matrix. -/
def mat3? (g : Grid α) : Option (Mat3 α) :=
  match g.shape, g.entries with
  | [3, 3], [a, b, c, d, e, f, g, h, i] => some ⟨⟨a, b, c⟩, ⟨d, e, f⟩, ⟨g, h, i⟩⟩
  | _, _ => none

/-- Two vectors in space, one for each end of an element. -/
def ends? (g : Grid α) : Option (Ends (Vec3 α)) :=
  match g.shape, g.entries with
  | [2, 3], [a, b, c, d, e, f] => some ⟨⟨a, b, c⟩, ⟨d, e, f⟩⟩
  | _, _ => none

/-- The displacement of a node. -/
def displacement? (g : Grid α) : Option (Displacement α) :=
  match g.vector? with
  | some [a, b, c, d, e, f] => some ⟨⟨a, b, c⟩, ⟨d, e, f⟩⟩
  | _ => none

/-- A vector over the slots of an element. -/
def elementVector? (g : Grid α) : Option (ElementVector α) :=
  g.vector?.bind ElementVector.ofList?

/-- A matrix over the slots of an element. -/
def elementMatrix? (g : Grid α) : Option (ElementMatrix α) :=
  g.rows?.bind ElementMatrix.ofRows?

/-- A vector in space. -/
def vec3 (g : Grid α) : Except (Failure α) (Vec3 α) := expect g.vec3?

/-- A three-by-three matrix. -/
def mat3 (g : Grid α) : Except (Failure α) (Mat3 α) := expect g.mat3?

/-- A vector over the slots of an element. -/
def elementVector (g : Grid α) : Except (Failure α) (ElementVector α) := expect g.elementVector?

/-- A matrix over the slots of an element. -/
def elementMatrix (g : Grid α) : Except (Failure α) (ElementMatrix α) := expect g.elementMatrix?

/-- A function of two numbers applied entry by entry. A single entry is matched
with every entry of the other grid. -/
def zipWith (f : α → α → α) (g h : Grid α) : Except (Failure α) (Grid α) :=
  if g.shape = h.shape then .ok ⟨g.shape, List.zipWith f g.entries h.entries⟩
  else
    match g.entries, h.entries with
    | [x], _ => .ok ⟨h.shape, h.entries.map (f x)⟩
    | _, [y] => .ok ⟨g.shape, g.entries.map (f · y)⟩
    | _, _ => .error (.fault .shape)

end Grid

/-! ## Grids in documents -/

namespace Document

/-- The number that a document stands for. Infinite values and values that are
not numbers are given by name, and a truth value counts as one or zero. -/
def number? : Document → Option Float
  | .int n => some (Float.ofInt n)
  | .real x => some x
  | .bool b => some (if b then 1 else 0)
  | .text "nan" => some (0 / 0)
  | .text "inf" => some (1 / 0)
  | .text "-inf" => some (-1 / 0)
  | _ => none

mutual

/-- The grid that a document stands for. Nothing stands for a value that is not a
number. -/
def grid? : Document → Option (Grid Float)
  | .list items => (grids? items).bind Grid.ofItems
  | .null => some (.ofNumber (0 / 0))
  | .bool b => some (.ofNumber (if b then 1 else 0))
  | .int n => some (.ofNumber (Float.ofInt n))
  | .real x => some (.ofNumber x)
  | .text s => (number? (.text s)).map Grid.ofNumber
  | .object _ => none

/-- The grids that documents stand for. -/
def grids? : List Document → Option (List (Grid Float))
  | [] => some []
  | d :: rest => do
    let g ← grid? d
    let gs ← grids? rest
    return g :: gs

end

/-- The whole number that a document stands for, what comes after the point
being dropped. -/
def truncated : Document → Except (Failure Float) Int
  | .int n => .ok n
  | d =>
    match d.number? with
    | none => .error (.fault .shape)
    | some x =>
      match Binary.ofFloat? x with
      | some b => .ok b.truncate
      | none => .error (.fault (if x.isNaN then .shape else .overflow))

end Document

end Corotation
