import Corotation.Scalar

/-!
# Vectors in space

A vector has three components. Componentwise sums, differences and negation are
written with the usual signs; `scale` and `divide` multiply and divide every
component by one number; `dot`, `cross` and `norm` are the scalar product, the
vector product and the length.

The length is the plain square root of the sum of squares: nothing rescales the
components, so in double precision it overflows and underflows where the squares
do.
-/

namespace Corotation

open Scalar

/-- A vector with three components. -/
@[ext]
structure Vec3 (α : Type) where
  /-- The first component. -/
  x : α
  /-- The second component. -/
  y : α
  /-- The third component. -/
  z : α
deriving DecidableEq, Repr

namespace Vec3

variable {α : Type} [Scalar α]

instance : Add (Vec3 α) := ⟨fun a b => ⟨a.x + b.x, a.y + b.y, a.z + b.z⟩⟩
instance : Sub (Vec3 α) := ⟨fun a b => ⟨a.x - b.x, a.y - b.y, a.z - b.z⟩⟩
instance : Neg (Vec3 α) := ⟨fun a => ⟨-a.x, -a.y, -a.z⟩⟩

/-- The zero vector. -/
def zero : Vec3 α := ⟨0, 0, 0⟩

instance : Inhabited (Vec3 α) := ⟨zero⟩

/-- The second axis. -/
def axisY : Vec3 α := ⟨0, 1, 0⟩

/-- The vector with every component sent through a function. -/
def map {β γ : Type} (f : β → γ) (a : Vec3 β) : Vec3 γ := ⟨f a.x, f a.y, f a.z⟩

/-- The vector times a number. -/
def scale (s : α) (a : Vec3 α) : Vec3 α := ⟨s * a.x, s * a.y, s * a.z⟩

/-- The vector divided by a number. -/
def divide (a : Vec3 α) (s : α) : Vec3 α := ⟨a.x / s, a.y / s, a.z / s⟩

/-- The scalar product. -/
def dot (a b : Vec3 α) : α := a.x * b.x + a.y * b.y + a.z * b.z

/-- The vector product. -/
def cross (a b : Vec3 α) : Vec3 α :=
  ⟨a.y * b.z - a.z * b.y, a.z * b.x - a.x * b.z, a.x * b.y - a.y * b.x⟩

/-- The length. -/
def norm (a : Vec3 α) : α := sqrt (a.dot a)

/-- The components in order. -/
def toList {β : Type} (a : Vec3 β) : List β := [a.x, a.y, a.z]

/-- Every component is zero. -/
def IsZero (a : Vec3 α) : Prop :=
  Scalar.IsZero a.x ∧ Scalar.IsZero a.y ∧ Scalar.IsZero a.z

instance (a : Vec3 α) : Decidable a.IsZero := inferInstanceAs (Decidable (_ ∧ _ ∧ _))

end Vec3

end Corotation
