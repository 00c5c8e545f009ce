import Corotation.Proofs.Space.Matrix
/-!
# Rotation matrices

A rotation has orthonormal rows and determinant one. Its transpose is then
its adjugate, which makes the transpose an inverse on both sides and lets
the rotation pass through the vector product (`IsRotation.apply_cross`).
Rotations are closed under products and transposes, and three vectors that
form a right-handed orthonormal basis are the columns of one.
-/

namespace Corotation

namespace Mat3

variable [SeriesAngle] {m n : Mat3 ℝ} {u v w : Vec3 ℝ}

/-- Orthonormal rows and determinant one. -/
structure IsRotation (m : Mat3 ℝ) : Prop where
  /-- The rows are orthonormal. -/
  mul_transpose : m * m.transpose = 1
  /-- The determinant is one. -/
  det_eq_one : m.det = 1

/-- The matrix of the cofactors, transposed. -/
noncomputable def adjugate (m : Mat3 ℝ) : Mat3 ℝ :=
  .ofColumns (m.r2.cross m.r3) (m.r3.cross m.r1) (m.r1.cross m.r2)

/-- A matrix times its adjugate is its determinant, on either side. -/
theorem adjugate_mul (m : Mat3 ℝ) : m.adjugate * m = m.det • (1 : Mat3 ℝ) := by
  rw [det_real]
  ext <;> simp [adjugate, ofColumns, Vec3.dot_eq, c1_eq, c2_eq, c3_eq] <;> ring

/-- Determinants multiply. -/
theorem det_mul (m n : Mat3 ℝ) : (m * n).det = m.det * n.det := by
  simp only [det_real, mul_r1, mul_r2, mul_r3, Vec3.dot_eq, c1_eq, c2_eq, c3_eq, Vec3.cross_x,
    Vec3.cross_y, Vec3.cross_z]
  ring

/-- A matrix and its transpose have one determinant. -/
theorem det_transpose (m : Mat3 ℝ) : m.transpose.det = m.det := by
  simp only [det_real, transpose_r1, transpose_r2, transpose_r3, Vec3.dot_eq, c1_eq, c2_eq, c3_eq,
    Vec3.cross_x, Vec3.cross_y, Vec3.cross_z]
  ring

/-- Between images of two vectors the vector product is the one of the
vectors under the cofactors. -/
theorem apply_cross_apply (m : Mat3 ℝ) (u v : Vec3 ℝ) :
    (m.apply u).cross (m.apply v) = m.adjugate.transpose.apply (u.cross v) := by
  ext <;> simp [adjugate, ofColumns, Vec3.dot_eq, c1_eq, c2_eq, c3_eq] <;> ring

namespace IsRotation

/-- **The transpose of a rotation is its adjugate.** -/
theorem adjugate_eq (h : m.IsRotation) : m.adjugate = m.transpose :=
  calc m.adjugate = m.adjugate * (m * m.transpose) := by rw [h.mul_transpose, mul_one]
    _ = (m.adjugate * m) * m.transpose := by rw [mul_assoc]
    _ = m.transpose := by rw [adjugate_mul, h.det_eq_one, one_smul, one_mul]

/-- The columns are orthonormal too. -/
theorem transpose_mul (h : m.IsRotation) : m.transpose * m = 1 := by
  rw [← h.adjugate_eq, adjugate_mul, h.det_eq_one, one_smul]

theorem transpose (h : m.IsRotation) : m.transpose.IsRotation :=
  ⟨h.transpose_mul, by rw [det_transpose, h.det_eq_one]⟩

protected theorem one : (1 : Mat3 ℝ).IsRotation :=
  ⟨by rw [transpose_one, mul_one], by simp [det_real, Vec3.dot_eq]⟩

protected theorem mul (hm : m.IsRotation) (hn : n.IsRotation) : (m * n).IsRotation where
  mul_transpose := by
    rw [Mat3.transpose_mul, ← mul_assoc, mul_assoc m, hn.mul_transpose, mul_one, hm.mul_transpose]
  det_eq_one := by rw [det_mul, hm.det_eq_one, hn.det_eq_one, mul_one]

/-- The transpose undoes a rotation. -/
theorem transpose_apply_apply (h : m.IsRotation) (v : Vec3 ℝ) :
    m.transpose.apply (m.apply v) = v := by
  rw [← mul_apply, h.transpose_mul, one_apply]

/-- A rotation undoes its transpose. -/
theorem apply_transpose_apply (h : m.IsRotation) (v : Vec3 ℝ) :
    m.apply (m.transpose.apply v) = v := by
  rw [← mul_apply, h.mul_transpose, one_apply]

/-- A rotation keeps scalar products. -/
theorem dot_apply_apply (h : m.IsRotation) (u v : Vec3 ℝ) :
    (m.apply u).dot (m.apply v) = u.dot v := by
  rw [dot_apply, h.transpose_apply_apply]

/-- A rotation keeps lengths. -/
theorem norm_apply (h : m.IsRotation) (v : Vec3 ℝ) : (m.apply v).norm = v.norm := by
  rw [Vec3.norm_eq, h.dot_apply_apply, Vec3.norm_eq]

/-- **A rotation passes through the vector product.** -/
theorem apply_cross (h : m.IsRotation) (u v : Vec3 ℝ) :
    m.apply (u.cross v) = (m.apply u).cross (m.apply v) := by
  rw [apply_cross_apply, h.adjugate_eq, transpose_transpose]

/-- The matrix of the vector product by a rotated vector. -/
theorem skew_apply (h : m.IsRotation) (v : Vec3 ℝ) :
    skew (m.apply v) = m * skew v * m.transpose :=
  ext_apply fun u => by
    rw [Mat3.skew_apply, mul_apply, mul_apply, Mat3.skew_apply, h.apply_cross,
      h.apply_transpose_apply]

/-- Rotating from the left leaves the relative rotation. -/
theorem transpose_mul_mul (h : m.IsRotation) (p q : Mat3 ℝ) :
    (m * p).transpose * (m * q) = p.transpose * q := by
  rw [Mat3.transpose_mul, mul_assoc, ← mul_assoc m.transpose, h.transpose_mul, one_mul]

end IsRotation

/-! ## Right-handed bases -/

/-- **A right-handed orthonormal basis makes a rotation.** Two unit vectors at
a right angle determine it. -/
theorem isRotation_ofColumns (hu : u.dot u = 1) (hv : v.dot v = 1) (huv : u.dot v = 0)
    (hw : u.cross v = w) : (ofColumns u v w).IsRotation := by
  have hww : w.dot w = 1 := by rw [← hw, Vec3.cross_dot_cross, hu, hv, huv]; ring
  have huw : u.dot w = 0 := by rw [← hw, Vec3.dot_cross_self_left]
  have hvw : v.dot w = 0 := by rw [← hw, Vec3.dot_cross_self_right]
  have gram : (ofColumns u v w).transpose * ofColumns u v w = 1 := by
    ext <;> simp [hu, hv, huv, hww, huw, hvw, Vec3.dot_comm v u, Vec3.dot_comm w u,
      Vec3.dot_comm w v]
  have det : (ofColumns u v w).transpose.det = 1 := by
    rw [det_real, transpose_r1, transpose_r2, transpose_r3, ofColumns_c1, ofColumns_c2,
      ofColumns_c3, Vec3.dot_cross, hw, hww]
  have h : (ofColumns u v w).transpose.IsRotation := ⟨by rw [transpose_transpose, gram], det⟩
  simpa using h.transpose

namespace IsRotation

theorem c1_dot_c1 (h : m.IsRotation) : m.c1.dot m.c1 = 1 :=
  congrArg (fun a : Mat3 ℝ => a.r1.x) h.transpose_mul
theorem c2_dot_c2 (h : m.IsRotation) : m.c2.dot m.c2 = 1 :=
  congrArg (fun a : Mat3 ℝ => a.r2.y) h.transpose_mul
theorem c1_dot_c2 (h : m.IsRotation) : m.c1.dot m.c2 = 0 :=
  congrArg (fun a : Mat3 ℝ => a.r1.y) h.transpose_mul

/-- The third column is the product of the others. -/
theorem c1_cross_c2 (h : m.IsRotation) : m.c1.cross m.c2 = m.c3 := by
  have h1 : m.apply ⟨1, 0, 0⟩ = m.c1 := by rw [apply_columns]; simp
  have h2 : m.apply ⟨0, 1, 0⟩ = m.c2 := by rw [apply_columns]; simp
  have h3 : m.apply ⟨0, 0, 1⟩ = m.c3 := by rw [apply_columns]; simp
  rw [← h1, ← h2, ← h3, ← h.apply_cross]
  congr 1
  ext <;> simp

/-- The second column is the product of the third and the first. -/
theorem c3_cross_c1 (h : m.IsRotation) : m.c3.cross m.c1 = m.c2 := by
  rw [← h.c1_cross_c2, Vec3.cross_cross_left, h.c1_dot_c1, Vec3.dot_comm, h.c1_dot_c2, one_smul,
    zero_smul, sub_zero]

theorem norm_c3 (h : m.IsRotation) : m.c3.norm = 1 := by
  rw [Vec3.norm_eq, ← h.c1_cross_c2, Vec3.cross_dot_cross, h.c1_dot_c1, h.c2_dot_c2, h.c1_dot_c2]
  simp

end IsRotation

end Mat3

end Corotation
