import Corotation.Space.Vector

/-!
# Three-by-three matrices

A matrix is kept by rows. `skew` is the matrix of the vector product, `outer`
the matrix of two vectors, and `det` the determinant by elimination: rows are
exchanged so that the largest entry of the current column is the pivot, and a
column without a nonzero entry ends the elimination with the value zero.
-/

namespace Corotation

open Scalar

/-- A three-by-three matrix, kept by rows. -/
@[ext]
structure Mat3 (α : Type) where
  /-- The first row. -/
  r1 : Vec3 α
  /-- The second row. -/
  r2 : Vec3 α
  /-- The third row. -/
  r3 : Vec3 α
deriving DecidableEq, Repr

namespace Mat3

variable {α : Type} [Scalar α]

instance : Add (Mat3 α) := ⟨fun a b => ⟨a.r1 + b.r1, a.r2 + b.r2, a.r3 + b.r3⟩⟩
instance : Sub (Mat3 α) := ⟨fun a b => ⟨a.r1 - b.r1, a.r2 - b.r2, a.r3 - b.r3⟩⟩
instance : Neg (Mat3 α) := ⟨fun a => ⟨-a.r1, -a.r2, -a.r3⟩⟩

/-- The zero matrix. -/
def zero : Mat3 α := ⟨.zero, .zero, .zero⟩

/-- The identity matrix. -/
def identity : Mat3 α := ⟨⟨1, 0, 0⟩, ⟨0, 1, 0⟩, ⟨0, 0, 1⟩⟩

instance : Inhabited (Mat3 α) := ⟨zero⟩

/-- The matrix with every entry sent through a function. -/
def map {β γ : Type} (f : β → γ) (a : Mat3 β) : Mat3 γ := ⟨a.r1.map f, a.r2.map f, a.r3.map f⟩

/-- The matrix with the given columns. -/
def ofColumns {β : Type} (a b c : Vec3 β) : Mat3 β :=
  ⟨⟨a.x, b.x, c.x⟩, ⟨a.y, b.y, c.y⟩, ⟨a.z, b.z, c.z⟩⟩

/-- The first column. -/
def c1 {β : Type} (a : Mat3 β) : Vec3 β := ⟨a.r1.x, a.r2.x, a.r3.x⟩

/-- The second column. -/
def c2 {β : Type} (a : Mat3 β) : Vec3 β := ⟨a.r1.y, a.r2.y, a.r3.y⟩

/-- The third column. -/
def c3 {β : Type} (a : Mat3 β) : Vec3 β := ⟨a.r1.z, a.r2.z, a.r3.z⟩

/-- The transpose. -/
def transpose {β : Type} (a : Mat3 β) : Mat3 β := ⟨a.c1, a.c2, a.c3⟩

/-- The rows in order. -/
def rows {β : Type} (a : Mat3 β) : List (Vec3 β) := [a.r1, a.r2, a.r3]

/-- The matrix times a number. -/
def scale (s : α) (a : Mat3 α) : Mat3 α := ⟨a.r1.scale s, a.r2.scale s, a.r3.scale s⟩

/-- The matrix applied to a vector. -/
def apply (a : Mat3 α) (v : Vec3 α) : Vec3 α := ⟨a.r1.dot v, a.r2.dot v, a.r3.dot v⟩

/-- A row vector times the matrix. -/
def applyLeft (v : Vec3 α) (a : Mat3 α) : Vec3 α := ⟨v.dot a.c1, v.dot a.c2, v.dot a.c3⟩

instance : Mul (Mat3 α) :=
  ⟨fun a b => ⟨applyLeft a.r1 b, applyLeft a.r2 b, applyLeft a.r3 b⟩⟩

/-- The matrix of the vector product: `(skew a).apply b` is `a.cross b`. -/
def skew (v : Vec3 α) : Mat3 α := ⟨⟨0, -v.z, v.y⟩, ⟨v.z, 0, -v.x⟩, ⟨-v.y, v.x, 0⟩⟩

/-- The matrix with entry `a i * b j` in row `i` and column `j`. -/
def outer (a b : Vec3 α) : Mat3 α := ⟨b.scale a.x, b.scale a.y, b.scale a.z⟩

/-- The diagonal matrix. -/
def diagonal (v : Vec3 α) : Mat3 α := ⟨⟨v.x, 0, 0⟩, ⟨0, v.y, 0⟩, ⟨0, 0, v.z⟩⟩

/-- The sum of the diagonal. -/
def trace (a : Mat3 α) : α := a.r1.x + a.r2.y + a.r3.z

/-! ## The determinant -/

/-- The determinant of a two-by-two matrix by elimination, the larger entry of
the first column being the pivot. -/
def det2 (a b c d : α) : α :=
  if magnitude a < magnitude c then
    if IsZero c then 0 else -(c * (b - a / c * d))
  else
    if IsZero a then 0 else a * (d - c / a * b)

/-- The determinant when the first row holds the pivot: the pivot times the
determinant of what elimination leaves of the other rows. -/
def detPivot (p q r : Vec3 α) : α :=
  if IsZero p.x then 0
  else
    p.x * det2 (q.y - q.x / p.x * p.y) (q.z - q.x / p.x * p.z)
      (r.y - r.x / p.x * p.y) (r.z - r.x / p.x * p.z)

/-- The determinant, by elimination with the first largest entry of a column as
its pivot. -/
def det (a : Mat3 α) : α :=
  if magnitude a.r1.x < magnitude a.r2.x then
    if magnitude a.r2.x < magnitude a.r3.x then -(detPivot a.r3 a.r2 a.r1)
    else -(detPivot a.r2 a.r1 a.r3)
  else
    if magnitude a.r1.x < magnitude a.r3.x then -(detPivot a.r3 a.r2 a.r1)
    else detPivot a.r1 a.r2 a.r3

end Mat3

end Corotation
