import Corotation.Element.Triad
import Corotation.Rotation.Tangent

/-!
# The linearization of the triad

How the triad, the length of the chord and the local rotations change with the
end displacements `d = (u_I, r_I, u_J, r_J)`. With `E` the block diagonal of the
axes,

* `spin` is `Gᵀ`: the spin of the triad is `Gᵀ Eᵀ d` in local components;
* `relativeSpin` is `P`: the spins of the nodes relative to the triad;
* `chordRow` is the row `r` with `d|dx| = r · d`;
* `deformationTangent` is `T`: the change of the local deformations is `T d`;
* `geometricStiffness` is the change of `Tᵀ p` at fixed local forces `p`.

The stiffness is the sum of five parts: the curvature of the rotation vectors,
the rotation of the chord under axial force, the rotation of the triad, the
change of the chord length inside `G`, and the change of the twist ratios inside
`G`. It is not symmetric away from equilibrium.
-/

namespace Corotation

open Scalar

namespace Triad

variable {α : Type} [Scalar α]

/-- The first axis, along the chord. -/
def e1 (t : Triad α) : Vec3 α := t.axes.c1

/-- The ratios by which the nodal rotations drive the twist of the triad: the
slope `q1 / q2` of the mean y-axis, and for each node the two components of its
y-axis over `q2`. -/
structure TwistRatios (α : Type) where
  /-- The slope of the mean y-axis. -/
  slope : α
  /-- The first components of the nodal y-axes over `q2`. -/
  first : Ends α
  /-- The second components of the nodal y-axes over `q2`. -/
  second : Ends α
deriving Repr

/-- The twist ratios of a triad. -/
def twistRatios (t : Triad α) : TwistRatios α where
  slope := t.mean.x / t.mean.y
  first := t.nodal.map fun q => q.x / t.mean.y
  second := t.nodal.map fun q => q.y / t.mean.y

/-- The spin of the triad for each local displacement component. -/
def spin (t : Triad α) : Covectors α :=
  let ratios := t.twistRatios
  let inv := 1 / t.length
  let slope := ratios.slope / t.length
  let rot (first second : α) : Mat3 α := ⟨⟨second / 2, -(first / 2), 0⟩, .zero, .zero⟩
  ⟨⟨⟨⟨0, 0, slope⟩, ⟨0, 0, inv⟩, ⟨0, -inv, 0⟩⟩, rot ratios.first.i ratios.second.i⟩,
   ⟨⟨⟨0, 0, -slope⟩, ⟨0, 0, -inv⟩, ⟨0, inv, 0⟩⟩, rot ratios.first.j ratios.second.j⟩⟩

/-- The nodal spins relative to the triad for each local displacement
component. -/
def relativeSpin (spin : Covectors α) : Ends (Covectors α) :=
  let o : Mat3 α := .zero
  let own : Ends (Covectors α) := ⟨⟨⟨o, .identity⟩, ⟨o, o⟩⟩, ⟨⟨o, o⟩, ⟨o, .identity⟩⟩⟩
  own.map fun c => Covectors.sub c spin

/-- The change of the chord length for each displacement component. -/
def chordRow (t : Triad α) : ElementVector α := ⟨⟨-t.e1, .zero⟩, ⟨t.e1, .zero⟩⟩

/-- The nodal spins relative to the triad for each global displacement
component. -/
def globalRelativeSpin (t : Triad α) : Ends (Covectors α) :=
  (relativeSpin t.spin).map fun c => c.mulDiagonal t.axes.transpose

/-- The map from end displacement increments to increments of the local
deformations. Of the linear rows only the axial one of the second end is
not zero. -/
def deformationTangent (tol : Tolerances α) (t : Triad α) (ul : ElementVector α) :
    ElementMatrix α :=
  let o : Covectors α := Slots.all .zero
  let rel := t.globalRelativeSpin
  let axial : Covectors α := Slots.map (fun v => ⟨v, .zero, .zero⟩) t.chordRow
  ⟨⟨o, rel.i.mulLeft (Tangent.spinToVector tol ul.i.rot)⟩,
   ⟨axial, rel.j.mulLeft (Tangent.spinToVector tol ul.j.rot)⟩⟩

/-! ## The geometric stiffness -/

/-- The change of the twist part of the spin for each global displacement
component, by the local component it multiplies. -/
def twistGradient (t : Triad α) : ElementMatrix α :=
  let ratios := t.twistRatios
  let q2 := t.mean.y
  let turn := t.spin.mulDiagonal t.axes.transpose
  let o : Mat3 α := .zero
  let back := t.axes.transpose
  let own : Ends (Covectors α) := ⟨⟨⟨o, back⟩, ⟨o, o⟩⟩, ⟨⟨o, o⟩, ⟨o, back⟩⟩⟩
  let axis : Ends (Covectors α) :=
    t.nodal.zipWith (fun q c => (c.sub turn).mulLeft (-(Mat3.skew q))) own
  let mean : Covectors α := Slots.map (Mat3.scale half) (Covectors.add axis.i axis.j)
  let change (numerator : Vec3 α) (ratio : α) (second : Vec3 α) : Vec3 α :=
    (numerator - second.scale ratio).divide q2
  let slope : ElementVector α := Slots.map (fun m => change m.r1 ratios.slope m.r2) mean
  let first : Ends (ElementVector α) :=
    ratios.first.zipWith (fun ratio a => Slots.zipWith (fun m b => change b.r1 ratio m.r2) mean a)
      axis
  let second : Ends (ElementVector α) :=
    ratios.second.zipWith (fun ratio a => Slots.zipWith (fun m b => change b.r2 ratio m.r2) mean a)
      axis
  let lin (v : ElementVector α) : Covectors α :=
    Slots.map (fun w => ⟨.zero, .zero, w.divide t.length⟩) v
  let rot (a b : ElementVector α) : Covectors α :=
    Slots.zipWith (fun f s => ⟨s.divide 2, -(f.divide 2), .zero⟩) a b
  ⟨⟨lin slope, rot first.i second.i⟩,
   ⟨lin (Slots.map (fun w => -w) slope), rot first.j second.j⟩⟩

/-- The moments at the ends that are conjugate to spins. -/
def spinMoments (tol : Tolerances α) (p ul : ElementVector α) : Ends (Vec3 α) :=
  Ends.zipWith (fun f u => (Tangent.spinToVector tol u.rot).transpose.apply f.rot) p ul

/-- The part of the stiffness from the curvature of the rotation vectors. -/
def curvatureStiffness (tol : Tolerances α) (t : Triad α) (p ul : ElementVector α) :
    ElementMatrix α :=
  let rel := t.globalRelativeSpin
  let part (c : Covectors α) (f u : Screw (Vec3 α)) : ElementMatrix α :=
    c.transposeMul (c.mulLeft (Tangent.momentStiffness tol u.rot f.rot))
  ElementMatrix.add (part rel.i p.i ul.i) (part rel.j p.j ul.j)

/-- The part of the stiffness from the rotation of the chord under the axial
force. -/
def chordStiffness (t : Triad α) (p : ElementVector α) : ElementMatrix α :=
  let n : α := p.axial
  let o : Mat3 α := .zero
  let d := ((Mat3.identity - Mat3.outer t.e1 t.e1).scale n).map (· / t.length)
  ⟨⟨⟨⟨d, o⟩, ⟨-d, o⟩⟩, ⟨⟨o, o⟩, ⟨o, o⟩⟩⟩, ⟨⟨⟨-d, o⟩, ⟨d, o⟩⟩, ⟨⟨o, o⟩, ⟨o, o⟩⟩⟩⟩

/-- The part of the stiffness from the rotation of the triad. -/
def triadStiffness (t : Triad α) (moments : Ends (Vec3 α)) : ElementMatrix α :=
  let rel := relativeSpin t.spin
  let n : ElementVector α :=
    ElementVector.add (rel.i.applyTranspose moments.i) (rel.j.applyTranspose moments.j)
  let turn := t.spin.mulDiagonal t.axes.transpose
  Slots.map (fun v => turn.mulLeft (t.axes * Mat3.skew v)) n

/-- The part of the stiffness from the chord length inside the spin. -/
def lengthStiffness (t : Triad α) (moments : Ends (Vec3 α)) : ElementMatrix α :=
  let sum := moments.i + moments.j
  let a : Vec3 α :=
    ⟨0, (t.twistRatios.slope * sum.x + sum.y) / t.length, sum.z / t.length⟩
  let column : ElementVector α := Slots.map t.axes.apply (t.spin.applyTranspose a)
  ElementMatrix.outer column t.chordRow

/-- The part of the stiffness from the twist ratios inside the spin. -/
def twistStiffness (t : Triad α) (moments : Ends (Vec3 α)) : ElementMatrix α :=
  let sum := moments.i + moments.j
  Slots.map (fun row => (Covectors.mulLeft t.axes row).scale sum.x) t.twistGradient

/-- The change of the end forces with the end displacements at fixed local
forces. -/
def geometricStiffness (tol : Tolerances α) (t : Triad α) (p ul : ElementVector α) :
    ElementMatrix α :=
  let moments := spinMoments tol p ul
  let k := ElementMatrix.add (t.curvatureStiffness tol p ul) (t.chordStiffness p)
  let k := ElementMatrix.sub k (t.triadStiffness moments)
  let k := ElementMatrix.add k (t.lengthStiffness moments)
  ElementMatrix.sub k (t.twistStiffness moments)

end Triad

end Corotation
