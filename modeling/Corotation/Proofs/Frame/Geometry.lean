import Corotation.Frame.Geometry
import Corotation.Proofs.Element.Triad
/-!
# Reference geometry over the real numbers

An accepted chord has a length, and an accepted orientation is a rotation
whose first axis is the direction of the chord. The acceptance of an
orientation bounds the tolerance: what is across the chord is not longer than
the reference vector, so the tolerance is below one (`parallel_lt_one`). That
is why the reference orientation itself determines a triad
(`determined_of_orientation`).
-/

namespace Corotation

variable [SeriesAngle] {tol : Tolerances ℝ} {dX v : Vec3 ℝ} {m : Mat3 ℝ} {element : Label}

theorem parallelLimit_eq (tol : Tolerances ℝ) (v : Vec3 ℝ) :
    parallelLimit tol v = tol.parallel * max v.norm 1 := by
  change tol.parallel * Scalar.larger v.norm 1 = _
  rw [Scalar.larger_real]

/-- **An accepted chord** is the vector between the points, and its length is
positive. -/
theorem chord_eq_ok {xi xj : Vec3 ℝ} {c : Chord ℝ} (h : chord xi xj element = .ok c) :
    c.vector = xj - xi ∧ c.length = c.vector.norm ∧ 0 < c.vector.norm := by
  unfold chord at h
  simp only [Scalar.le_real] at h
  split at h
  · cases h
  · rename_i hpos
    cases h
    exact ⟨rfl, rfl, not_le.mp hpos⟩

/-- Distinct points have a chord. -/
theorem exists_chord {xi xj : Vec3 ℝ} (h : 0 < (xj - xi).norm) (element : Label) :
    ∃ c, chord xi xj element = .ok c ∧ c.vector = xj - xi := by
  unfold chord
  simp only [Scalar.le_real]
  rw [if_neg (not_le.mpr h)]
  exact ⟨_, rfl, rfl⟩

/-- **An accepted orientation** has the direction of the chord, the normalized
product of the reference vector with it, and their product for its columns. -/
theorem orientation_eq_ok (h : orientation tol dX v element = .ok m) :
    tol.parallel * max v.norm 1 < (v.cross (Triad.direction dX)).norm
      ∧ m = .ofColumns (Triad.direction dX) (Triad.direction (v.cross (Triad.direction dX)))
        ((Triad.direction dX).cross (Triad.direction (v.cross (Triad.direction dX)))) := by
  unfold orientation at h
  simp only [Scalar.le_real, Vec3.divide_eq_smul, parallelLimit_eq] at h
  split at h
  · cases h
  · rename_i hacross
    cases h
    exact ⟨not_le.mp hacross, rfl⟩

/-- A reference vector that reaches across the chord gives an orientation. -/
theorem exists_orientation
    (h : tol.parallel * max v.norm 1 < (v.cross (Triad.direction dX)).norm) (element : Label) :
    ∃ m, orientation tol dX v element = .ok m := by
  unfold orientation
  simp only [Scalar.le_real, Vec3.divide_eq_smul, parallelLimit_eq]
  rw [Triad.direction] at h
  rw [if_neg (not_le.mpr h)]
  exact ⟨_, rfl⟩

theorem first_axis_of_orientation (h : orientation tol dX v element = .ok m) :
    m.c1 = Triad.direction dX := by
  rw [(orientation_eq_ok h).2, Mat3.ofColumns_c1]

/-- A reference vector that is not along the chord makes a rotation with it. -/
theorem isRotation_of_across (hX : 0 < dX.norm) (hpos : 0 < (v.cross (Triad.direction dX)).norm) :
    (Mat3.ofColumns (Triad.direction dX) (Triad.direction (v.cross (Triad.direction dX)))
      ((Triad.direction dX).cross
        (Triad.direction (v.cross (Triad.direction dX))))).IsRotation := by
  refine Mat3.isRotation_ofColumns (Vec3.dot_divide_norm hX) (Vec3.dot_divide_norm hpos) ?_ rfl
  rw [Triad.direction, Vec3.smul_dot, Triad.direction, Vec3.dot_smul]
  simp

theorem isRotation_of_orientation (h0 : 0 ≤ tol.parallel) (hX : 0 < dX.norm)
    (h : orientation tol dX v element = .ok m) : m.IsRotation := by
  obtain ⟨hacross, rfl⟩ := orientation_eq_ok h
  exact isRotation_of_across hX
    ((mul_nonneg h0 (zero_le_one.trans (le_max_right _ _))).trans_lt hacross)

/-- Whatever the tolerance is, an accepted orientation with a positive determinant is a
rotation. -/
theorem isRotation_of_det_pos (hX : 0 < dX.norm) (h : orientation tol dX v element = .ok m)
    (hdet : 0 < m.det) : m.IsRotation := by
  obtain ⟨-, rfl⟩ := orientation_eq_ok h
  refine isRotation_of_across hX (Vec3.norm_pos fun hzero => hdet.ne' ?_)
  have hcolumn : Triad.direction (0 : Vec3 ℝ) = 0 := smul_zero _
  rw [hzero, hcolumn, ← Mat3.det_transpose, Mat3.det_real, Mat3.transpose_r2, Mat3.ofColumns_c2,
    Vec3.zero_cross, Vec3.dot_zero]

/-- A vector product with a unit vector is not longer than the vector. -/
theorem norm_cross_le {u : Vec3 ℝ} (hu : u.dot u = 1) (v : Vec3 ℝ) : (v.cross u).norm ≤ v.norm := by
  rw [Vec3.norm_eq, Vec3.norm_eq]
  refine Real.sqrt_le_sqrt ?_
  rw [Vec3.cross_dot_cross, hu, Vec3.dot_comm u v]
  linarith [mul_self_nonneg (v.dot u)]

/-- **A tolerance that accepts an orientation is below one.** -/
theorem parallel_lt_one (hX : 0 < dX.norm) (h : orientation tol dX v element = .ok m) :
    tol.parallel < 1 := by
  obtain ⟨hacross, -⟩ := orientation_eq_ok h
  have hle := norm_cross_le (Vec3.dot_divide_norm hX) v
  have hmax : (0 : ℝ) < max v.norm 1 := one_pos.trans_le (le_max_right _ _)
  have : tol.parallel * max v.norm 1 < 1 * max v.norm 1 := by
    rw [one_mul]
    exact (hacross.trans_le hle).trans_le (le_max_left _ _)
  exact lt_of_mul_lt_mul_right this hmax.le

/-- **The reference orientation determines a triad** on its chord, both nodes
having it. -/
theorem determined_of_orientation (h0 : 0 ≤ tol.parallel) (hX : 0 < dX.norm)
    (h : orientation tol dX v element = .ok m) : Triad.Determined tol (.both m.c2) dX := by
  have hm := isRotation_of_orientation h0 hX h
  refine ⟨hX, ?_⟩
  rw [Triad.normal, Triad.meanAxis_both, ← first_axis_of_orientation h, hm.c1_cross_c2, hm.norm_c3]
  exact parallel_lt_one hX h

end Corotation
