import Corotation.Frame.Section
import Corotation.Proofs.Element.Covariance
/-!
# An element with its ends exchanged

Which end of an element is the first one is a matter of its record. With the ends
exchanged the chord points the other way, and the local axes are the former ones
after half a turn about the third one (`halfTurn`): the first two change their sign.
So do the local rotations, which belong to the other end each, and the moments; the
elongation and the axial force stay (`ElementVector.mirror`).

The triad, the tangent and every part of the geometric stiffness follow
(`between_reverse`, `deformationTangent_reverse`, `geometricStiffness_reverse`): seen
from the nodes the reversed element acts as the element does. The linear-elastic
stiffness of a section does not tell the ends apart at all (`stiffness_mirror`).
-/

namespace Corotation

/-! ## Exchanged ends -/

namespace Ends

variable {β γ : Type}

/-- The ends exchanged. -/
def swap (e : Ends β) : Ends β := ⟨e.j, e.i⟩

@[simp] theorem swap_i (e : Ends β) : e.swap.i = e.j := rfl
@[simp] theorem swap_j (e : Ends β) : e.swap.j = e.i := rfl
@[simp] theorem swap_swap (e : Ends β) : e.swap.swap = e := rfl
@[simp] theorem swap_both (b : β) : (both b).swap = both b := rfl

theorem swap_add [Add β] (e e' : Ends β) : (e + e').swap = e.swap + e'.swap := rfl

theorem map_swap (f : β → γ) (e : Ends β) : e.swap.map f = (e.map f).swap := rfl

end Ends

namespace Mat3

variable [SeriesAngle]

/-- Half a turn about the third axis. -/
noncomputable def halfTurn : Mat3 ℝ := diagonal ⟨-1, -1, 1⟩

@[simp] theorem halfTurn_apply (v : Vec3 ℝ) : halfTurn.apply v = ⟨-v.x, -v.y, v.z⟩ := by
  simp [halfTurn]

theorem halfTurn_transpose : halfTurn.transpose = halfTurn := by
  ext <;> rfl

theorem isRotation_halfTurn : halfTurn.IsRotation where
  mul_transpose := by
    rw [halfTurn_transpose]
    refine Mat3.ext_apply fun v => ?_
    simp
  det_eq_one := by
    rw [det_real]
    simp [halfTurn, diagonal, Vec3.dot_eq]

theorem halfTurn_mul_self : halfTurn * halfTurn = (1 : Mat3 ℝ) := by
  have h := isRotation_halfTurn.mul_transpose
  rwa [halfTurn_transpose] at h

theorem halfTurn_apply_apply (v : Vec3 ℝ) : halfTurn.apply (halfTurn.apply v) = v := by
  rw [← Mat3.mul_apply, halfTurn_mul_self, Mat3.one_apply]

/-- Half a turn before a matrix changes the sign of its first two columns. -/
theorem ofColumns_mul_halfTurn (a b c : Vec3 ℝ) :
    ofColumns a b c * halfTurn = ofColumns (-a) (-b) c := by
  refine Mat3.ext_apply fun v => ?_
  rw [mul_apply, apply_columns (ofColumns a b c), apply_columns (ofColumns (-a) (-b) c)]
  simp

theorem mul_halfTurn_c2 (m : Mat3 ℝ) : (m * halfTurn).c2 = -m.c2 := by
  rw [mul_c2]
  ext <;> simp [halfTurn, diagonal, c2_eq, Vec3.dot_eq]

end Mat3

open Mat3 (halfTurn)

/-! ## The tangent of turned rotation vectors -/

namespace Tangent

variable [SeriesAngle] (tol : Tolerances ℝ) {g : Mat3 ℝ} (hg : g.IsRotation) (theta m v : Vec3 ℝ)

include hg

theorem spinToVector_turn : (spinToVector tol (g.apply theta)).apply (g.apply v)
    = g.apply ((spinToVector tol theta).apply v) := by
  simp only [spinToVector_eq, spinToVectorWith_apply, hg.norm_apply, ← hg.apply_cross,
    Mat3.apply_add, Mat3.apply_sub, Mat3.apply_smul]

theorem spinToVector_transpose_turn : (spinToVector tol (g.apply theta)).transpose.apply (g.apply v)
    = g.apply ((spinToVector tol theta).transpose.apply v) := by
  simp only [spinToVector_eq, spinToVectorWith_transpose_apply, hg.norm_apply, ← hg.apply_cross,
    Mat3.apply_add, Mat3.apply_smul]

theorem momentStiffness_turn :
    (momentStiffness tol (g.apply theta) (g.apply m)).apply (g.apply v)
      = g.apply ((momentStiffness tol theta m).apply v) := by
  simp only [momentStiffness_apply, spinToVector_turn tol hg, hg.norm_apply, hg.dot_apply_apply,
    ← hg.apply_cross, Mat3.apply_add, Mat3.apply_sub, Mat3.apply_smul]

end Tangent

/-! ## Local vectors of the reversed element -/

namespace ElementVector

variable [SeriesAngle] (p x : ElementVector ℝ)

/-- A local vector of the reversed element: the rotational parts belong to the other
end each and are turned, and the linear parts are those of the ends. -/
noncomputable def mirror (p : ElementVector ℝ) : ElementVector ℝ :=
  ⟨⟨p.i.lin, halfTurn.apply p.j.rot⟩, ⟨p.j.lin, halfTurn.apply p.i.rot⟩⟩

theorem mirror_inner : p.mirror.inner x.mirror = p.inner x := by
  simp only [ElementVector.inner, mirror, Mat3.isRotation_halfTurn.dot_apply_apply]
  ring

theorem swap_inner : ElementVector.inner p.swap x.swap = p.inner x := by
  simp only [ElementVector.inner, Ends.swap_i, Ends.swap_j]
  ring

end ElementVector

namespace ElementMatrix

/-- A matrix at the nodes with the ends exchanged in its rows and columns. -/
def exchange {β : Type} (k : Slots (Slots β)) : Slots (Slots β) :=
  ⟨⟨k.j.lin.swap, k.j.rot.swap⟩, ⟨k.i.lin.swap, k.i.rot.swap⟩⟩

variable [SeriesAngle] {k k' : ElementMatrix ℝ}

/-- It acts on exchanged vectors. -/
theorem eq_exchange (h : ∀ x : ElementVector ℝ, apply k' x.swap = (apply k x).swap) :
    k' = exchange k := by
  have hrow (row : Covectors ℝ) (x : ElementVector ℝ) :
      Covectors.apply row.swap x = row.apply x.swap := by
    simp only [Covectors.apply_eq, Ends.swap_i, Ends.swap_j]
    abel
  refine ext_apply fun x => ?_
  have hx : apply k' x = (apply k x.swap).swap := h x.swap
  rw [hx]
  exact Slots.ext_slots (hrow _ _).symm (hrow _ _).symm (hrow _ _).symm (hrow _ _).symm

end ElementMatrix

/-- **The linear-elastic stiffness** does not tell the ends apart. -/
theorem Section.stiffness_mirror [SeriesAngle] (s : Section ℝ) (length : ℝ) (u : ElementVector ℝ) :
    ElementMatrix.apply (s.stiffness length) u.mirror
      = (ElementMatrix.apply (s.stiffness length) u).mirror := by
  refine Slots.ext_slots ?_ ?_ ?_ ?_ <;>
  · ext <;> simp [Section.stiffness, ElementVector.mirror, Covectors.apply_eq] <;> ring

namespace Triad

variable [SeriesAngle]

/-- The triad of the reversed element. -/
noncomputable def reverse (t : Triad ℝ) : Triad ℝ :=
  ⟨t.length, t.axes * halfTurn, -halfTurn.apply t.mean,
    (t.nodal.map fun q => -halfTurn.apply q).swap⟩

section Between

variable {tol : Tolerances ℝ} {nodal : Ends (Vec3 ℝ)} {dx : Vec3 ℝ}

theorem direction_neg (v : Vec3 ℝ) : direction (-v) = -direction v := by
  rw [direction, Vec3.norm_neg, direction, smul_neg]

theorem meanAxis_reverse (nodal : Ends (Vec3 ℝ)) :
    meanAxis (nodal.map (- ·)).swap = -meanAxis nodal := by
  rw [meanAxis_eq, meanAxis_eq]
  simp only [Ends.map, Ends.swap]
  module

/-- The normal stays, since both of its factors change their sign. -/
theorem normal_reverse : normal (nodal.map (- ·)).swap (-dx) = normal nodal dx := by
  rw [normal, direction_neg, meanAxis_reverse, Vec3.neg_cross, Vec3.cross_neg, neg_neg, normal]

/-- What determines a triad determines one with the ends exchanged. -/
theorem Determined.reverse (h : Determined tol nodal dx) :
    Determined tol (nodal.map (- ·)).swap (-dx) := by
  refine ⟨?_, by rw [normal_reverse]; exact h.across⟩
  rw [Vec3.norm_neg]
  exact h.length_pos

/-- **The opposite chord with opposite nodal axes has the reversed triad.** -/
theorem between_reverse : between (nodal.map (- ·)).swap (-dx) = (between nodal dx).reverse := by
  have haxes :
      (between (nodal.map (- ·)).swap (-dx)).axes = (between nodal dx).axes * halfTurn := by
    change Mat3.ofColumns (direction (-dx))
      ((direction (normal (nodal.map (- ·)).swap (-dx))).cross (direction (-dx)))
      (direction (normal (nodal.map (- ·)).swap (-dx))) = _
    rw [normal_reverse, direction_neg, Vec3.cross_neg, ← Mat3.ofColumns_mul_halfTurn]
    rfl
  have hlocal (v : Vec3 ℝ) : ((between nodal dx).axes * halfTurn).transpose.apply (-v)
      = -halfTurn.apply ((between nodal dx).axes.transpose.apply v) := by
    rw [Mat3.transpose_mul, Mat3.mul_apply, Mat3.halfTurn_transpose, Mat3.apply_neg, Mat3.apply_neg]
  refine Triad.ext (Vec3.norm_neg _) haxes ?_ (Ends.ext ?_ ?_)
  · change (between (nodal.map (- ·)).swap (-dx)).axes.transpose.apply
      (meanAxis (nodal.map (- ·)).swap) = _
    rw [haxes, meanAxis_reverse, hlocal]
    rfl
  · change (between (nodal.map (- ·)).swap (-dx)).axes.transpose.apply (-nodal.j) = _
    rw [haxes, hlocal]
    rfl
  · change (between (nodal.map (- ·)).swap (-dx)).axes.transpose.apply (-nodal.i) = _
    rw [haxes, hlocal]
    rfl

end Between

/-! ## The linearization of the reversed triad -/

variable (tol : Tolerances ℝ) (t : Triad ℝ) (x p ul : ElementVector ℝ)

theorem reverse_axes_apply (v : Vec3 ℝ) :
    t.reverse.axes.apply (halfTurn.apply v) = t.axes.apply v := by
  change (t.axes * halfTurn).apply _ = _
  rw [Mat3.mul_apply, Mat3.halfTurn_apply_apply]

theorem localize_reverse :
    t.reverse.localize x.swap = (Slots.map halfTurn.apply (t.localize x)).swap := by
  have hback (v : Vec3 ℝ) :
      (t.axes * halfTurn).transpose.apply v = halfTurn.apply (t.axes.transpose.apply v) := by
    rw [Mat3.transpose_mul, Mat3.mul_apply, Mat3.halfTurn_transpose]
  exact Slots.ext_slots (hback _) (hback _) (hback _) (hback _)

theorem localSpin_reverse : t.reverse.localSpin x.swap = halfTurn.apply (t.localSpin x) := by
  rw [localSpin_eq, localSpin_eq, localize_reverse]
  ext <;> simp [reverse, Ends.map] <;> ring

theorem relativeSpins_reverse :
    t.reverse.relativeSpins x.swap = ((t.relativeSpins x).map halfTurn.apply).swap := by
  rw [relativeSpins, localize_reverse, localSpin_reverse]
  exact Ends.ext (Mat3.apply_sub _ _ _).symm (Mat3.apply_sub _ _ _).symm

theorem e1_reverse : t.reverse.e1 = -t.e1 := by
  rw [e1_eq, e1_eq]
  change (t.axes * halfTurn).apply _ = _
  rw [Mat3.mul_apply, ← Mat3.apply_neg]
  congr 1
  ext <;> simp

theorem chordRow_reverse : t.reverse.chordRow = t.chordRow.swap := by
  refine Slots.ext_slots ?_ rfl ?_ rfl
  · change -t.reverse.e1 = t.e1
    rw [e1_reverse, neg_neg]
  · exact t.e1_reverse

theorem chordRow_reverse_inner : t.reverse.chordRow.inner x.swap = t.chordRow.inner x := by
  rw [chordRow_reverse, ElementVector.swap_inner]

/-- **The deformation tangent** of the reversed triad. -/
theorem deformationTangent_reverse :
    ElementMatrix.apply (t.reverse.deformationTangent tol ul.mirror) x.swap
      = (ElementMatrix.apply (t.deformationTangent tol ul) x).mirror := by
  rw [deformationTangent_apply, deformationTangent_apply, relativeSpins_reverse,
    chordRow_reverse_inner]
  exact Slots.ext_slots rfl (Tangent.spinToVector_turn tol Mat3.isRotation_halfTurn _ _) rfl
    (Tangent.spinToVector_turn tol Mat3.isRotation_halfTurn _ _)

/-! ## The end forces of the reversed triad -/

theorem spinMoments_reverse : spinMoments tol p.mirror ul.mirror
    = ((spinMoments tol p ul).map halfTurn.apply).swap :=
  Ends.ext (Tangent.spinToVector_transpose_turn tol Mat3.isRotation_halfTurn _ _)
    (Tangent.spinToVector_transpose_turn tol Mat3.isRotation_halfTurn _ _)

variable (m : Ends (Vec3 ℝ))

theorem localForce_reverse : t.reverse.localForce (m.map halfTurn.apply).swap
    = (Slots.map halfTurn.apply (t.localForce m)).swap := by
  rw [localForce_eq, localForce_eq]
  refine Slots.ext_slots ?_ ?_ ?_ ?_ <;>
  · ext <;> simp [reverse, Ends.map] <;> ring

theorem map_axes_reverse (y : ElementVector ℝ) :
    Slots.map t.reverse.axes.apply (Slots.map halfTurn.apply y).swap
      = (Slots.map t.axes.apply y).swap := by
  refine Slots.ext_slots ?_ ?_ ?_ ?_ <;> exact t.reverse_axes_apply _

theorem endForce_reverse (n : ℝ) :
    t.reverse.endForce (m.map halfTurn.apply).swap n = (t.endForce m n).swap := by
  rw [endForce, localForce_reverse, map_axes_reverse, chordRow_reverse]
  rfl

/-! ## The geometric stiffness of the reversed triad -/

theorem axisRates_reverse : t.reverse.axisRates x.swap
    = ((t.axisRates x).map fun v => -halfTurn.apply v).swap := by
  have hcross (u v : Vec3 ℝ) :
      (halfTurn.apply u).cross (-halfTurn.apply v) = -halfTurn.apply (u.cross v) := by
    rw [Vec3.cross_neg, Mat3.isRotation_halfTurn.apply_cross]
  rw [axisRates, relativeSpins_reverse]
  exact Ends.ext (hcross _ _) (hcross _ _)

theorem meanAxisRate_reverse :
    meanAxis (t.reverse.axisRates x.swap) = -halfTurn.apply (meanAxis (t.axisRates x)) := by
  rw [axisRates_reverse, meanAxis_eq, meanAxis_eq, Mat3.apply_smul, Mat3.apply_add]
  simp only [Ends.map, Ends.swap]
  module

theorem ratioRate_reverse (rate ratio : ℝ) :
    t.reverse.ratioRate x.swap rate ratio = t.ratioRate x rate ratio := by
  rw [ratioRate, meanAxisRate_reverse, ratioRate]
  simp [reverse]

/-- The ratios inside the spin of the reversed triad. -/
theorem twistGradient_reverse : ElementMatrix.apply t.reverse.twistGradient x.swap
    = (Slots.map (fun v => -halfTurn.apply v) (ElementMatrix.apply t.twistGradient x)).swap := by
  rw [twistGradient_apply, twistGradient_apply]
  simp only [ratioRate_reverse, meanAxisRate_reverse]
  rw [axisRates_reverse]
  refine Slots.ext_slots ?_ ?_ ?_ ?_ <;>
  · ext <;> simp [reverse, Ends.map]

theorem chordStiffness_reverse : ElementMatrix.apply (t.reverse.chordStiffness p.mirror) x.swap
    = (ElementMatrix.apply (t.chordStiffness p) x).swap := by
  have hturn : t.length⁻¹ • (x.i.lin - x.j.lin - (-t.e1).dot (x.i.lin - x.j.lin) • -t.e1)
      = -(t.length⁻¹ • (x.j.lin - x.i.lin - t.e1.dot (x.j.lin - x.i.lin) • t.e1)) := by
    simp only [Vec3.dot_sub, Vec3.neg_dot]
    module
  rw [chordStiffness_apply, chordStiffness_apply, e1_reverse]
  change p.axial • (⟨⟨-(t.length⁻¹ • _), 0⟩, ⟨t.length⁻¹ • _, 0⟩⟩ : ElementVector ℝ) = _
  rw [Ends.swap_i, Ends.swap_j, hturn, neg_neg]
  rfl

theorem triadStiffness_reverse :
    ElementMatrix.apply (t.reverse.triadStiffness (m.map halfTurn.apply).swap) x.swap
      = (ElementMatrix.apply (t.triadStiffness m) x).swap := by
  have hrow (v : Vec3 ℝ) :
      t.reverse.axes.apply ((halfTurn.apply v).cross (halfTurn.apply (t.localSpin x)))
        = t.axes.apply (v.cross (t.localSpin x)) := by
    rw [← Mat3.isRotation_halfTurn.apply_cross, reverse_axes_apply]
  rw [triadStiffness_apply, triadStiffness_apply, localSpin_reverse, localForce_reverse]
  exact Slots.ext_slots (hrow _) (hrow _) (hrow _) (hrow _)

theorem lengthStiffness_reverse :
    ElementMatrix.apply (t.reverse.lengthStiffness (m.map halfTurn.apply).swap) x.swap
      = (ElementMatrix.apply (t.lengthStiffness m) x).swap := by
  have hweights : t.reverse.lengthWeights (m.map halfTurn.apply).swap
      = halfTurn.apply (t.lengthWeights m) := by
    ext <;> simp [lengthWeights, reverse, Ends.map] <;> ring
  have hspin (w : Vec3 ℝ) : t.reverse.spin.applyTranspose (halfTurn.apply w)
      = (Slots.map halfTurn.apply (t.spin.applyTranspose w)).swap := by
    rw [spin_eq, spin_eq]
    refine Slots.ext_slots ?_ ?_ ?_ ?_ <;>
    · ext <;> simp [reverse, Ends.map, Vec3.dot_eq, Mat3.c1_eq, Mat3.c2_eq, Mat3.c3_eq]
  rw [lengthStiffness_apply, lengthStiffness_apply, chordRow_reverse_inner, hweights, hspin,
    map_axes_reverse]
  rfl

theorem twistStiffness_reverse :
    ElementMatrix.apply (t.reverse.twistStiffness (m.map halfTurn.apply).swap) x.swap
      = (ElementMatrix.apply (t.twistStiffness m) x).swap := by
  have hsum : ((m.map halfTurn.apply).swap.i + (m.map halfTurn.apply).swap.j).x
      = -(m.i + m.j).x := by
    simp [Ends.map]
  have hrow (v : Vec3 ℝ) : -(m.i + m.j).x • t.reverse.axes.apply (-halfTurn.apply v)
      = (m.i + m.j).x • t.axes.apply v := by
    rw [Mat3.apply_neg, reverse_axes_apply, neg_smul, smul_neg, neg_neg]
  rw [twistStiffness_apply, twistStiffness_apply, twistGradient_reverse, hsum]
  exact Slots.ext_slots (hrow _) (hrow _) (hrow _) (hrow _)

/-- **The geometric stiffness** of the reversed triad. -/
theorem geometricStiffness_reverse :
    ElementMatrix.apply (t.reverse.geometricStiffness tol p.mirror ul.mirror) x.swap
      = (ElementMatrix.apply (t.geometricStiffness tol p ul) x).swap := by
  have hcurvature : ElementMatrix.apply (t.reverse.curvatureStiffness tol p.mirror ul.mirror) x.swap
      = (ElementMatrix.apply (t.curvatureStiffness tol p ul) x).swap := by
    rw [curvatureStiffness_apply, curvatureStiffness_apply, relativeSpins_reverse,
      ← endForce_reverse]
    refine congrArg (t.reverse.endForce · 0) (Ends.ext ?_ ?_) <;>
      exact Tangent.momentStiffness_turn tol Mat3.isRotation_halfTurn _ _ _
  simp only [geometricStiffness, ElementMatrix.sub_apply, ElementMatrix.add_apply, hcurvature,
    chordStiffness_reverse, spinMoments_reverse, triadStiffness_reverse, lengthStiffness_reverse,
    twistStiffness_reverse]
  rfl

end Triad

end Corotation
