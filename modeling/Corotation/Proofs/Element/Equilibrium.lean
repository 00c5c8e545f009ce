import Corotation.Proofs.Element.Linearization
import Corotation.Proofs.Element.Pairing
/-!
# The element in rigid rates

In a rigid rate with the spin `w` the triad turns with `w`
(`IsRigidRate.localSpin_eq`). So no node spins relative to it, the chord keeps its
length, and nothing of the local deformations has a rate
(`IsRigidRate.deformationTangent_apply`). What is left of the geometric stiffness
are the chord under its axial force and the triad under the moments, and together
they turn the end forces with the body (`IsRigidRate.geometricStiffness_apply`).

In any rate, the forces that the geometric stiffness adds have no resultant, in
none of its parts (`geometricStiffness_resultant`).
-/

namespace Corotation

namespace Triad

variable [SeriesAngle] {tol : Tolerances ℝ} {t : Triad ℝ} {w : Vec3 ℝ} {x p ul : ElementVector ℝ}

/-- The ends of the chord move as in a rigid motion with the spin `w`. -/
structure IsRigidRate (t : Triad ℝ) (w : Vec3 ℝ) (x : ElementVector ℝ) : Prop where
  rot_i : x.i.rot = w
  rot_j : x.j.rot = w
  chord : x.j.lin - x.i.lin = w.cross (t.length • t.e1)

namespace IsRigidRate

/-- The rate of the chord in components of the triad. -/
theorem localize_chord (hx : t.IsRigidRate w x) (h : t.IsFrame) :
    (t.localize x).j.lin - (t.localize x).i.lin
      = (t.axes.transpose.apply w).cross ⟨t.length, 0, 0⟩ := by
  have he1 : t.axes.transpose.apply (t.length • t.e1) = ⟨t.length, 0, 0⟩ := by
    rw [Mat3.apply_smul, e1_eq, h.isRotation.transpose_apply_apply]
    ext <;> simp
  rw [localize, Slots.map_j_lin, Slots.map_i_lin, ← Mat3.apply_sub, hx.chord,
    h.isRotation.transpose.apply_cross, he1]

/-- **The triad turns with the body**: its spin in components of the triad is
that of the body. -/
theorem localSpin_eq (hx : t.IsRigidRate w x) (h : t.IsMeanFrame) :
    t.localSpin x = t.axes.transpose.apply w := by
  have hchord := hx.localize_chord h.toIsFrame
  have hi : (t.localize x).i.rot = t.axes.transpose.apply w := by
    rw [localize, Slots.map_i_rot, hx.rot_i]
  have hj : (t.localize x).j.rot = t.axes.transpose.apply w := by
    rw [localize, Slots.map_j_rot, hx.rot_j]
  have hL : t.length ≠ 0 := h.length_pos.ne'
  have hq : t.mean.y ≠ 0 := h.mean_y.ne'
  have hmean_x : t.mean.x = (t.nodal.i.x + t.nodal.j.x) / 2 := by
    rw [h.mean, meanAxis_eq, Vec3.smul_x, Vec3.add_x]
    ring
  have hmean_y : t.mean.y = (t.nodal.i.y + t.nodal.j.y) / 2 := by
    rw [h.mean, meanAxis_eq, Vec3.smul_y, Vec3.add_y]
    ring
  -- the ends move apart across the chord only
  have hz : (t.localize x).i.lin.z - (t.localize x).j.lin.z
      = t.length * (t.axes.transpose.apply w).y := by
    have := congrArg Vec3.z hchord
    simp only [Vec3.sub_z, Vec3.cross_z] at this
    linarith
  have hy : (t.localize x).j.lin.y - (t.localize x).i.lin.y
      = t.length * (t.axes.transpose.apply w).z := by
    have := congrArg Vec3.y hchord
    simp only [Vec3.sub_y, Vec3.cross_y] at this
    linarith
  rw [Triad.localSpin_eq]
  simp only [hi, hj, hy, hz]
  generalize t.axes.transpose.apply w = u
  ext
  · simp only
    field_simp
    rw [hmean_x, hmean_y]
    ring
  · exact mul_div_cancel_left₀ _ hL
  · exact mul_div_cancel_left₀ _ hL

/-- No node spins relative to the triad. -/
theorem relativeSpins_eq (hx : t.IsRigidRate w x) (h : t.IsMeanFrame) : t.relativeSpins x = 0 := by
  rw [relativeSpins, hx.localSpin_eq h]
  refine Ends.ext ?_ ?_
  · rw [localize, Slots.map_i_rot, hx.rot_i]
    exact sub_self _
  · rw [localize, Slots.map_j_rot, hx.rot_j]
    exact sub_self _

/-- The chord keeps its length. -/
theorem chordRow_inner (hx : t.IsRigidRate w x) : t.chordRow.inner x = 0 := by
  rw [Triad.chordRow_inner, hx.chord, Vec3.cross_smul, Vec3.dot_smul, Vec3.dot_cross_self_right,
    mul_zero]

/-- **A rigid rate deforms nothing.** -/
theorem deformationTangent_apply (hx : t.IsRigidRate w x) (h : t.IsMeanFrame) :
    ElementMatrix.apply (t.deformationTangent tol ul) x = 0 := by
  rw [Triad.deformationTangent_apply, hx.relativeSpins_eq h, hx.chordRow_inner]
  exact Slots.ext_slots rfl (Mat3.apply_zero _) rfl (Mat3.apply_zero _)

/-! ## The parts of the geometric stiffness -/

/-- The rotation vectors have no rate, and no curvature. -/
theorem curvatureStiffness_apply (hx : t.IsRigidRate w x) (h : t.IsMeanFrame) :
    ElementMatrix.apply (t.curvatureStiffness tol p ul) x = 0 := by
  rw [Triad.curvatureStiffness_apply, hx.relativeSpins_eq h]
  refine Slots.ext_slots ?_ ?_ ?_ ?_ <;> simp [endForce, localForce]

/-- The axial force turns with the chord. -/
theorem chordStiffness_apply (hx : t.IsRigidRate w x) (h : t.IsMeanFrame) :
    ElementMatrix.apply (t.chordStiffness p) x = Slots.map w.cross (p.axial • t.chordRow) := by
  have hL : t.length ≠ 0 := h.length_pos.ne'
  have hturn : t.length⁻¹ • (x.j.lin - x.i.lin - t.e1.dot (x.j.lin - x.i.lin) • t.e1)
      = w.cross t.e1 := by
    rw [hx.chord, Vec3.cross_smul, Vec3.dot_smul, Vec3.dot_cross_self_right, mul_zero, zero_smul,
      sub_zero, smul_smul, inv_mul_cancel₀ hL, one_smul]
  rw [Triad.chordStiffness_apply, hturn]
  refine Slots.ext_slots ?_ ?_ ?_ ?_ <;> simp [chordRow]

/-- The forces of the moments turn with the triad. -/
theorem triadStiffness_apply (hx : t.IsRigidRate w x) (h : t.IsMeanFrame) (m : Ends (Vec3 ℝ)) :
    ElementMatrix.apply (t.triadStiffness m) x
      = -Slots.map w.cross (Slots.map t.axes.apply (t.localForce m)) := by
  have hturn (v : Vec3 ℝ) : t.axes.apply (v.cross (t.axes.transpose.apply w))
      = -w.cross (t.axes.apply v) := by
    rw [h.isRotation.apply_cross, h.isRotation.apply_transpose_apply, Vec3.cross_anticomm]
  rw [Triad.triadStiffness_apply, hx.localSpin_eq h]
  exact Slots.ext_slots (hturn _) (hturn _) (hturn _) (hturn _)

/-- The length has no rate. -/
theorem lengthStiffness_apply (hx : t.IsRigidRate w x) (m : Ends (Vec3 ℝ)) :
    ElementMatrix.apply (t.lengthStiffness m) x = 0 := by
  rw [Triad.lengthStiffness_apply, hx.chordRow_inner, zero_smul]

/-- The twist ratios have no rate. -/
theorem twistStiffness_apply (hx : t.IsRigidRate w x) (h : t.IsMeanFrame) (m : Ends (Vec3 ℝ)) :
    ElementMatrix.apply (t.twistStiffness m) x = 0 := by
  have haxes : t.axisRates x = 0 := by
    rw [axisRates, hx.relativeSpins_eq h]
    exact Ends.ext (Vec3.zero_cross _) (Vec3.zero_cross _)
  have hratio (ratio : ℝ) : t.ratioRate x 0 ratio = 0 := by
    simp [ratioRate, haxes, meanAxis_eq]
  have hgradient : ElementMatrix.apply t.twistGradient x = 0 := by
    rw [twistGradient_apply, haxes]
    refine Slots.ext_slots ?_ ?_ ?_ ?_ <;> ext <;> simp [meanAxis_eq, hratio]
  rw [Triad.twistStiffness_apply, hgradient]
  refine Slots.ext_slots ?_ ?_ ?_ ?_ <;> simp

/-- **The end forces turn with the body** in a rigid rate. -/
theorem geometricStiffness_apply (hx : t.IsRigidRate w x) (h : t.IsMeanFrame)
    (tol : Tolerances ℝ) (p ul : ElementVector ℝ) :
    ElementMatrix.apply (t.geometricStiffness tol p ul) x
      = Slots.map w.cross (t.endForce (spinMoments tol p ul) p.axial) := by
  rw [geometricStiffness]
  simp only [ElementMatrix.sub_apply, ElementMatrix.add_apply, hx.curvatureStiffness_apply h,
    hx.chordStiffness_apply h, hx.triadStiffness_apply h, hx.lengthStiffness_apply,
    hx.twistStiffness_apply h]
  refine Slots.ext_slots ?_ ?_ ?_ ?_ <;> simp [endForce, add_comm]

end IsRigidRate

/-! ## Resultants -/

variable (tol t x p ul)

/-- What moves both ends alike does not turn the triad. -/
theorem spin_resultant (v : Vec3 ℝ) : (t.spin.applyTranspose v).resultant = 0 := by
  have hspin : t.spin.j.lin = -t.spin.i.lin := by
    rw [spin_eq]
    ext <;> simp
  rw [ElementVector.resultant, Covectors.applyTranspose_i_lin, Covectors.applyTranspose_j_lin,
    hspin, Mat3.transpose_neg, Mat3.neg_apply, add_neg_cancel]

/-- The end forces of moments have no resultant, in components of the triad. -/
theorem localForce_resultant (m : Ends (Vec3 ℝ)) : (t.localForce m).resultant = 0 := by
  rw [localForce_eq]
  exact add_neg_cancel _

theorem chordRow_resultant : t.chordRow.resultant = 0 := neg_add_cancel _

/-- **End forces have no resultant.** -/
theorem endForce_resultant (m : Ends (Vec3 ℝ)) (n : ℝ) : (t.endForce m n).resultant = 0 := by
  simp [endForce, localForce_resultant, chordRow_resultant]

/-- **The geometric stiffness adds forces without resultant**, in each of its
parts. -/
theorem geometricStiffness_resultant :
    (ElementMatrix.apply (t.geometricStiffness tol p ul) x).resultant = 0 := by
  have hcurvature : (ElementMatrix.apply (t.curvatureStiffness tol p ul) x).resultant = 0 := by
    rw [curvatureStiffness_apply]
    exact endForce_resultant _ _ _
  have hchord : (ElementMatrix.apply (t.chordStiffness p) x).resultant = 0 := by
    rw [chordStiffness_apply, ElementVector.resultant_smul, ElementVector.resultant,
      neg_add_cancel, smul_zero]
  have htriad (m : Ends (Vec3 ℝ)) : (ElementMatrix.apply (t.triadStiffness m) x).resultant = 0 := by
    rw [triadStiffness_apply, ElementVector.resultant, Slots.map_i_lin, Slots.map_j_lin,
      ← Mat3.apply_add, ← Vec3.add_cross]
    change t.axes.apply ((t.localForce m).resultant.cross _) = 0
    rw [localForce_resultant, Vec3.zero_cross, Mat3.apply_zero]
  have hlength (m : Ends (Vec3 ℝ)) :
      (ElementMatrix.apply (t.lengthStiffness m) x).resultant = 0 := by
    simp [lengthStiffness_apply, spin_resultant]
  have htwist (m : Ends (Vec3 ℝ)) : (ElementMatrix.apply (t.twistStiffness m) x).resultant = 0 := by
    have hgradient : (ElementMatrix.apply t.twistGradient x).resultant = 0 := by
      rw [twistGradient_apply]
      ext <;> simp [ElementVector.resultant]
    simp [twistStiffness_apply, hgradient]
  simp only [geometricStiffness, ElementMatrix.sub_apply, ElementMatrix.add_apply,
    ElementVector.resultant_sub, ElementVector.resultant_add, hcurvature, hchord, htriad, hlength,
    htwist, add_zero, sub_zero]

end Triad

end Corotation
