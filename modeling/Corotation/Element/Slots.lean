import Corotation.Space.Matrix

/-!
# Slots — vectors and matrices of a two-node element

An element has two ends, and at each end a linear and a rotational part: four
slots of three components each, in the order

    linear at I, rotational at I, linear at J, rotational at J.

`Ends` is a pair over the ends and `Screw` a pair over the two parts, so an
element vector is a `Slots (Vec3 α)`. An element matrix has a three-by-three
block for each pair of slots: a `Slots (Slots (Mat3 α))`, row slot first. A
matrix with three rows is a `Slots (Mat3 α)`. All matrix algebra of the element
is done block by block.
-/

namespace Corotation

open Scalar

/-- One value for each end of an element. -/
@[ext]
structure Ends (β : Type) where
  /-- The value at the first end. -/
  i : β
  /-- The value at the second end. -/
  j : β
deriving DecidableEq, Repr

/-- A linear and a rotational part: a displacement with a rotation, or a force
with a moment. -/
@[ext]
structure Screw (β : Type) where
  /-- The linear part. -/
  lin : β
  /-- The rotational part. -/
  rot : β
deriving DecidableEq, Repr

/-- One value for each slot of an element vector. -/
abbrev Slots (β : Type) := Ends (Screw β)

/-- The displacement of a node: how far it has moved, and a running sum of
rotation increments. -/
abbrev Displacement (α : Type) := Screw (Vec3 α)

/-- A vector over the four slots of an element. -/
abbrev ElementVector (α : Type) := Slots (Vec3 α)

/-- A matrix over the four slots of an element, by row slot and column slot. -/
abbrev ElementMatrix (α : Type) := Slots (Slots (Mat3 α))

/-- A matrix with three rows and a column for each entry of an element vector. -/
abbrev Covectors (α : Type) := Slots (Mat3 α)

namespace Ends

variable {β γ δ : Type}

/-- The same value at both ends. -/
def both (b : β) : Ends β := ⟨b, b⟩

/-- A function applied at both ends. -/
def map (f : β → γ) (e : Ends β) : Ends γ := ⟨f e.i, f e.j⟩

/-- A function of two values applied at both ends. -/
def zipWith (f : β → γ → δ) (e : Ends β) (e' : Ends γ) : Ends δ := ⟨f e.i e'.i, f e.j e'.j⟩

/-- The values, the first end before the second. -/
def toList (e : Ends β) : List β := [e.i, e.j]

end Ends

namespace Screw

variable {β γ δ : Type}

/-- The same value for both parts. -/
def both (b : β) : Screw β := ⟨b, b⟩

/-- A function applied to both parts. -/
def map (f : β → γ) (s : Screw β) : Screw γ := ⟨f s.lin, f s.rot⟩

/-- A function of two values applied to both parts. -/
def zipWith (f : β → γ → δ) (s : Screw β) (s' : Screw γ) : Screw δ :=
  ⟨f s.lin s'.lin, f s.rot s'.rot⟩

/-- The parts, the linear one first. -/
def toList (s : Screw β) : List β := [s.lin, s.rot]

end Screw

namespace Slots

variable {β γ δ : Type}

/-- The same value in every slot. -/
def all (b : β) : Slots β := .both (.both b)

/-- A function applied in every slot. -/
def map (f : β → γ) (s : Slots β) : Slots γ := Ends.map (Screw.map f) s

/-- A function of two values applied in every slot. -/
def zipWith (f : β → γ → δ) (s : Slots β) (s' : Slots γ) : Slots δ :=
  Ends.zipWith (Screw.zipWith f) s s'

/-- The values in slot order. -/
def toList (s : Slots β) : List β := [s.i.lin, s.i.rot, s.j.lin, s.j.rot]

/-- The sum over the slots. -/
def sum [Add β] (s : Slots β) : β := s.i.lin + s.i.rot + s.j.lin + s.j.rot

end Slots

/-! ## Displacements -/

namespace Displacement

variable {α : Type} [Scalar α]

/-- No displacement. -/
def zero : Displacement α := ⟨.zero, .zero⟩

/-- Componentwise difference. -/
def sub (d d' : Displacement α) : Displacement α := ⟨d.lin - d'.lin, d.rot - d'.rot⟩

/-- Every component is zero. -/
def IsZero (d : Displacement α) : Prop := d.lin.IsZero ∧ d.rot.IsZero

instance (d : Displacement α) : Decidable (IsZero d) := inferInstanceAs (Decidable (_ ∧ _))

end Displacement

/-! ## Element vectors -/

namespace ElementVector

variable {α : Type} [Scalar α]

/-- The zero vector. -/
def zero : ElementVector α := Slots.all .zero

/-- Componentwise sum. -/
def add (p q : ElementVector α) : ElementVector α := Slots.zipWith (· + ·) p q

/-- Componentwise difference. -/
def sub (p q : ElementVector α) : ElementVector α := Slots.zipWith (· - ·) p q

/-- The twelve components in order. -/
def toList {β : Type} (p : ElementVector β) : List β := (Slots.toList p).flatMap Vec3.toList

/-- The vector with twelve given components. -/
def ofList? {β : Type} : List β → Option (ElementVector β)
  | [a, b, c, d, e, f, g, h, i, j, k, l] =>
    some ⟨⟨⟨a, b, c⟩, ⟨d, e, f⟩⟩, ⟨⟨g, h, i⟩, ⟨j, k, l⟩⟩⟩
  | _ => none

/-- The axial coordinate: the first linear component of the second end. -/
def axial {β : Type} (p : ElementVector β) : β := p.j.lin.x

end ElementVector

/-! ## Three-rowed matrices -/

namespace Covectors

variable {α : Type} [Scalar α]

/-- Blockwise sum. -/
def add (a b : Covectors α) : Covectors α := Slots.zipWith (· + ·) a b

/-- Blockwise difference. -/
def sub (a b : Covectors α) : Covectors α := Slots.zipWith (· - ·) a b

instance instAddCovectors : Add (Covectors α) := ⟨add⟩

/-- The matrix applied to an element vector. -/
def apply (a : Covectors α) (p : ElementVector α) : Vec3 α :=
  Slots.sum (Slots.zipWith Mat3.apply a p)

/-- The transpose applied to a vector with three components. -/
def applyTranspose (a : Covectors α) (v : Vec3 α) : ElementVector α :=
  Slots.map (fun block => block.transpose.apply v) a

/-- A three-by-three matrix times the matrix. -/
def mulLeft (m : Mat3 α) (a : Covectors α) : Covectors α := Slots.map (m * ·) a

/-- The matrix times a number. -/
def scale (s : α) (a : Covectors α) : Covectors α := Slots.map (Mat3.scale s) a

/-- The matrix times the block diagonal of one three-by-three matrix. -/
def mulDiagonal (a : Covectors α) (m : Mat3 α) : Covectors α := Slots.map (· * m) a

/-- The product of the transpose of the first matrix and the second. -/
def transposeMul (a b : Covectors α) : ElementMatrix α :=
  Slots.map (fun block => mulLeft block.transpose b) a

end Covectors

/-! ## Element matrices -/

namespace ElementMatrix

variable {α : Type} [Scalar α]

/-- The zero matrix. -/
def zero : ElementMatrix α := Slots.all (Slots.all .zero)

/-- The identity matrix. -/
def identity : ElementMatrix α :=
  let o : Mat3 α := .zero
  let e : Mat3 α := .identity
  ⟨⟨⟨⟨e, o⟩, ⟨o, o⟩⟩, ⟨⟨o, e⟩, ⟨o, o⟩⟩⟩, ⟨⟨⟨o, o⟩, ⟨e, o⟩⟩, ⟨⟨o, o⟩, ⟨o, e⟩⟩⟩⟩

/-- Blockwise sum. -/
def add (a b : ElementMatrix α) : ElementMatrix α := Slots.zipWith Covectors.add a b

/-- Blockwise difference. -/
def sub (a b : ElementMatrix α) : ElementMatrix α := Slots.zipWith Covectors.sub a b

/-- The transpose. -/
def transpose (a : ElementMatrix α) : ElementMatrix α :=
  let column (f : Slots (Mat3 α) → Mat3 α) : Slots (Mat3 α) :=
    Slots.map (fun row => (f row).transpose) a
  ⟨⟨column (·.i.lin), column (·.i.rot)⟩, ⟨column (·.j.lin), column (·.j.rot)⟩⟩

/-- The product of a row of blocks and a matrix: the sum over the slots of each
block times the matching row. -/
def rowMul (row : Slots (Mat3 α)) (b : ElementMatrix α) : Slots (Mat3 α) :=
  Slots.sum (Slots.zipWith Covectors.mulLeft row b)

/-- The matrix product. -/
def mul (a b : ElementMatrix α) : ElementMatrix α := Slots.map (rowMul · b) a

/-- The matrix applied to an element vector. -/
def apply (a : ElementMatrix α) (p : ElementVector α) : ElementVector α :=
  Slots.map (Covectors.apply · p) a

/-- The matrix with each row multiplied by an entry of the vector. -/
def scaleRows (w : ElementVector α) (a : ElementMatrix α) : ElementMatrix α :=
  Slots.zipWith (fun v row => Covectors.mulLeft (Mat3.diagonal v) row) w a

/-- The product of two element vectors as a matrix of rank one. -/
def outer (p q : ElementVector α) : ElementMatrix α :=
  Slots.map (fun v => Slots.map (Mat3.outer v) q) p

/-- `aᵀ b a`. -/
def congruence (a b : ElementMatrix α) : ElementMatrix α := mul (mul a.transpose b) a

/-- The twelve rows in order, each with its twelve entries. -/
def toRows {β : Type} (a : Slots (Slots (Mat3 β))) : List (List β) :=
  (Slots.toList a).flatMap fun row =>
    [(Slots.toList row).flatMap fun block => block.r1.toList,
     (Slots.toList row).flatMap fun block => block.r2.toList,
     (Slots.toList row).flatMap fun block => block.r3.toList]

/-- The blocks of three rows. -/
def ofThreeRows {β : Type} (rows : Vec3 (ElementVector β)) : Slots (Mat3 β) :=
  ⟨⟨⟨rows.x.i.lin, rows.y.i.lin, rows.z.i.lin⟩, ⟨rows.x.i.rot, rows.y.i.rot, rows.z.i.rot⟩⟩,
   ⟨⟨rows.x.j.lin, rows.y.j.lin, rows.z.j.lin⟩, ⟨rows.x.j.rot, rows.y.j.rot, rows.z.j.rot⟩⟩⟩

/-- The matrix with twelve given rows of twelve entries. -/
def ofRows? {β : Type} (rows : List (List β)) : Option (ElementMatrix β) := do
  let rows ← rows.mapM ElementVector.ofList?
  let rows ← ElementVector.ofList? rows
  return Slots.map ofThreeRows rows

end ElementMatrix

end Corotation
