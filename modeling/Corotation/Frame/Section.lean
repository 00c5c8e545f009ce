import Corotation.Element.Slots
import Corotation.Text.Document

/-!
# Sections and the linear-elastic stiffness

A section record describes a two-node beam with a uniform cross-section. In the
local deformation coordinates only the natural modes carry stiffness: the axial
elongation `EA/L`, the torsion `GJ/L`, and bending about the two lateral axes
with the matrix `EI/L [4 2; 2 4]`. The local rotations are measured relative to
the chord, so the linear rows are zero but for the axial one.
-/

namespace Corotation

open Scalar

/-- The material and section constants of a beam. -/
@[ext]
structure Section (α : Type) where
  /-- Young's modulus. -/
  E : α
  /-- The shear modulus. -/
  G : α
  /-- The area. -/
  A : α
  /-- The second moment of area about the local y-axis. -/
  Iy : α
  /-- The second moment of area about the local z-axis. -/
  Iz : α
  /-- The torsion constant. -/
  J : α
deriving Repr

namespace Section

variable {α : Type} [Scalar α]

/-- The stiffness in local deformation coordinates for a reference length. -/
def stiffness (s : Section α) (length : α) : ElementMatrix α :=
  let axial := s.E * s.A / length
  let torsion := s.G * s.J / length
  let y := s.E * s.Iy / length
  let z := s.E * s.Iz / length
  let o : Mat3 α := .zero
  let near : Mat3 α := .diagonal ⟨torsion, y * 4, z * 4⟩
  let far : Mat3 α := .diagonal ⟨-torsion, y * 2, z * 2⟩
  ⟨⟨⟨⟨o, o⟩, ⟨o, o⟩⟩, ⟨⟨o, near⟩, ⟨o, far⟩⟩⟩,
   ⟨⟨⟨o, o⟩, ⟨.diagonal ⟨axial, 0, 0⟩, o⟩⟩, ⟨⟨o, far⟩, ⟨o, near⟩⟩⟩⟩

end Section

end Corotation
