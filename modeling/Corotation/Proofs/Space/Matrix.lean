import Corotation.Proofs.Space.Vector
import Corotation.Space.Matrix
/-!
# Matrices over the real numbers

The three-by-three matrices are a ring and a real vector space under their
own signs. `apply` is their action on vectors, `transpose` the adjoint for
the scalar product, and the determinant by elimination is the triple
product of the rows, whichever pivots were taken.

A rotation is a matrix whose rows are orthonormal and whose determinant is
one. Its columns are then orthonormal too, and it commutes with the vector
product.
-/

namespace Corotation

namespace Mat3

/-! ## Columns -/

section Columns

variable {β : Type} (a : Mat3 β)

theorem c1_eq : a.c1 = ⟨a.r1.x, a.r2.x, a.r3.x⟩ := rfl
theorem c2_eq : a.c2 = ⟨a.r1.y, a.r2.y, a.r3.y⟩ := rfl
theorem c3_eq : a.c3 = ⟨a.r1.z, a.r2.z, a.r3.z⟩ := rfl

@[simp] theorem transpose_r1 : a.transpose.r1 = a.c1 := rfl
@[simp] theorem transpose_r2 : a.transpose.r2 = a.c2 := rfl
@[simp] theorem transpose_r3 : a.transpose.r3 = a.c3 := rfl
@[simp] theorem transpose_c1 : a.transpose.c1 = a.r1 := rfl
@[simp] theorem transpose_c2 : a.transpose.c2 = a.r2 := rfl
@[simp] theorem transpose_c3 : a.transpose.c3 = a.r3 := rfl

@[simp] theorem transpose_transpose : a.transpose.transpose = a := rfl

@[simp] theorem ofColumns_c1 (u v w : Vec3 β) : (ofColumns u v w).c1 = u := rfl
@[simp] theorem ofColumns_c2 (u v w : Vec3 β) : (ofColumns u v w).c2 = v := rfl
@[simp] theorem ofColumns_c3 (u v w : Vec3 β) : (ofColumns u v w).c3 = w := rfl

end Columns

variable [SeriesAngle] (a b c : Mat3 ℝ) (u v w : Vec3 ℝ) (s t : ℝ)

/-! ## The ring -/

noncomputable instance instZeroReal : Zero (Mat3 ℝ) := ⟨zero⟩
noncomputable instance instOneReal : One (Mat3 ℝ) := ⟨identity⟩
noncomputable instance instSMulReal : SMul ℝ (Mat3 ℝ) := ⟨scale⟩

@[simp] theorem add_r1 : (a + b).r1 = a.r1 + b.r1 := rfl
@[simp] theorem add_r2 : (a + b).r2 = a.r2 + b.r2 := rfl
@[simp] theorem add_r3 : (a + b).r3 = a.r3 + b.r3 := rfl
@[simp] theorem sub_r1 : (a - b).r1 = a.r1 - b.r1 := rfl
@[simp] theorem sub_r2 : (a - b).r2 = a.r2 - b.r2 := rfl
@[simp] theorem sub_r3 : (a - b).r3 = a.r3 - b.r3 := rfl
@[simp] theorem neg_r1 : (-a).r1 = -a.r1 := rfl
@[simp] theorem neg_r2 : (-a).r2 = -a.r2 := rfl
@[simp] theorem neg_r3 : (-a).r3 = -a.r3 := rfl
@[simp] theorem zero_r1 : (0 : Mat3 ℝ).r1 = 0 := rfl
@[simp] theorem zero_r2 : (0 : Mat3 ℝ).r2 = 0 := rfl
@[simp] theorem zero_r3 : (0 : Mat3 ℝ).r3 = 0 := rfl
@[simp] theorem one_r1 : (1 : Mat3 ℝ).r1 = ⟨1, 0, 0⟩ := rfl
@[simp] theorem one_r2 : (1 : Mat3 ℝ).r2 = ⟨0, 1, 0⟩ := rfl
@[simp] theorem one_r3 : (1 : Mat3 ℝ).r3 = ⟨0, 0, 1⟩ := rfl
@[simp] theorem smul_r1 : (s • a).r1 = s • a.r1 := rfl
@[simp] theorem smul_r2 : (s • a).r2 = s • a.r2 := rfl
@[simp] theorem smul_r3 : (s • a).r3 = s • a.r3 := rfl
@[simp] theorem mul_r1 : (a * b).r1 = ⟨a.r1.dot b.c1, a.r1.dot b.c2, a.r1.dot b.c3⟩ := rfl
@[simp] theorem mul_r2 : (a * b).r2 = ⟨a.r2.dot b.c1, a.r2.dot b.c2, a.r2.dot b.c3⟩ := rfl
@[simp] theorem mul_r3 : (a * b).r3 = ⟨a.r3.dot b.c1, a.r3.dot b.c2, a.r3.dot b.c3⟩ := rfl

@[simp] theorem zero_eq : (zero : Mat3 ℝ) = 0 := rfl
@[simp] theorem identity_eq : (identity : Mat3 ℝ) = 1 := rfl
@[simp] theorem scale_eq_smul : a.scale s = s • a := rfl

noncomputable instance instRingReal : Ring (Mat3 ℝ) where
  add_assoc p q r := by ext <;> simp [add_assoc]
  zero_add p := by ext <;> simp
  add_zero p := by ext <;> simp
  add_comm p q := by ext <;> simp [add_comm]
  neg_add_cancel p := by ext <;> simp
  sub_eq_add_neg p q := by ext <;> simp [sub_eq_add_neg]
  left_distrib p q r := by ext <;> simp [Vec3.dot_eq, c1_eq, c2_eq, c3_eq] <;> ring
  right_distrib p q r := by ext <;> simp
  zero_mul p := by ext <;> simp
  mul_zero p := by ext <;> simp [Vec3.dot_eq, c1_eq, c2_eq, c3_eq]
  mul_assoc p q r := by ext <;> simp [Vec3.dot_eq, c1_eq, c2_eq, c3_eq] <;> ring
  one_mul p := by ext <;> simp [Vec3.dot_eq, c1_eq, c2_eq, c3_eq]
  mul_one p := by ext <;> simp [Vec3.dot_eq, c1_eq, c2_eq, c3_eq]
  nsmul := nsmulRec
  zsmul := zsmulRec

noncomputable instance instModuleReal : Module ℝ (Mat3 ℝ) where
  one_smul p := by ext <;> simp
  mul_smul x y p := by ext <;> simp [mul_assoc]
  smul_zero x := by ext <;> simp
  smul_add x p q := by ext <;> simp
  add_smul x y p := by ext <;> simp [add_mul]
  zero_smul p := by ext <;> simp

@[simp] theorem smul_mul : s • a * b = s • (a * b) := by ext <;> simp

@[simp] theorem mul_smul_comm : a * s • b = s • (a * b) := by
  ext <;> simp [Vec3.dot_eq, c1_eq, c2_eq, c3_eq] <;> ring

/-! ## The action on vectors -/

theorem apply_eq : a.apply v = ⟨a.r1.dot v, a.r2.dot v, a.r3.dot v⟩ := rfl

@[simp] theorem apply_x : (a.apply v).x = a.r1.dot v := rfl
@[simp] theorem apply_y : (a.apply v).y = a.r2.dot v := rfl
@[simp] theorem apply_z : (a.apply v).z = a.r3.dot v := rfl

@[simp] theorem apply_add : a.apply (u + v) = a.apply u + a.apply v := by ext <;> simp
@[simp] theorem apply_sub : a.apply (u - v) = a.apply u - a.apply v := by ext <;> simp
@[simp] theorem apply_neg : a.apply (-v) = -a.apply v := by ext <;> simp
@[simp] theorem apply_smul : a.apply (s • v) = s • a.apply v := by ext <;> simp
@[simp] theorem apply_zero : a.apply 0 = 0 := by ext <;> simp
@[simp] theorem add_apply : (a + b).apply v = a.apply v + b.apply v := by ext <;> simp
@[simp] theorem sub_apply : (a - b).apply v = a.apply v - b.apply v := by ext <;> simp
@[simp] theorem neg_apply : (-a).apply v = -a.apply v := by ext <;> simp
@[simp] theorem smul_apply : (s • a).apply v = s • a.apply v := by ext <;> simp
@[simp] theorem zero_apply : (0 : Mat3 ℝ).apply v = 0 := by ext <;> simp
@[simp] theorem one_apply : (1 : Mat3 ℝ).apply v = v := by ext <;> simp [Vec3.dot_eq]

@[simp] theorem mul_apply : (a * b).apply v = a.apply (b.apply v) := by
  ext <;> simp [Vec3.dot_eq, c1_eq, c2_eq, c3_eq] <;> ring

/-- A matrix is known by its action. -/
theorem ext_apply {a b : Mat3 ℝ} (h : ∀ v, a.apply v = b.apply v) : a = b := by
  have hx := h ⟨1, 0, 0⟩
  have hy := h ⟨0, 1, 0⟩
  have hz := h ⟨0, 0, 1⟩
  simp [Vec3.ext_iff, Vec3.dot_eq] at hx hy hz
  ext <;> tauto

/-! ## The transpose -/

@[simp] theorem transpose_zero : (0 : Mat3 ℝ).transpose = 0 := rfl
@[simp] theorem transpose_one : (1 : Mat3 ℝ).transpose = 1 := rfl
@[simp] theorem transpose_add : (a + b).transpose = a.transpose + b.transpose := rfl
@[simp] theorem transpose_sub : (a - b).transpose = a.transpose - b.transpose := rfl
@[simp] theorem transpose_neg : (-a).transpose = -a.transpose := rfl
@[simp] theorem transpose_smul : (s • a).transpose = s • a.transpose := rfl

@[simp] theorem transpose_mul : (a * b).transpose = b.transpose * a.transpose := by
  ext <;> simp [Vec3.dot_eq, c1_eq, c2_eq, c3_eq] <;> ring

/-- The transpose is the adjoint. -/
theorem dot_apply : u.dot (a.apply v) = (a.transpose.apply u).dot v := by
  simp [Vec3.dot_eq, c1_eq, c2_eq, c3_eq]; ring

theorem apply_dot : (a.apply u).dot v = u.dot (a.transpose.apply v) := by
  rw [Vec3.dot_comm, dot_apply, Vec3.dot_comm]

/-- The columns of a product are the images of the columns. -/
@[simp] theorem mul_c1 : (a * b).c1 = a.apply b.c1 := by ext <;> rfl
@[simp] theorem mul_c2 : (a * b).c2 = a.apply b.c2 := by ext <;> rfl
@[simp] theorem mul_c3 : (a * b).c3 = a.apply b.c3 := by ext <;> rfl

/-- A matrix applied to a vector is a sum of its columns. -/
theorem apply_columns : a.apply v = v.x • a.c1 + v.y • a.c2 + v.z • a.c3 := by
  ext <;> simp [Vec3.dot_eq, c1_eq, c2_eq, c3_eq] <;> ring

/-- A row vector times a matrix is the transpose applied to it. -/
@[simp] theorem applyLeft_eq : applyLeft v a = a.transpose.apply v := by
  ext <;> exact Vec3.dot_comm _ _

/-! ## The matrices of the products -/

theorem skew_eq : skew v = ⟨⟨0, -v.z, v.y⟩, ⟨v.z, 0, -v.x⟩, ⟨-v.y, v.x, 0⟩⟩ := rfl

@[simp] theorem skew_apply : (skew u).apply v = u.cross v := by
  ext <;> simp [skew_eq, Vec3.dot_eq] <;> ring

@[simp] theorem skew_transpose : (skew v).transpose = -skew v := by
  ext <;> simp [skew_eq, c1_eq, c2_eq, c3_eq]

@[simp] theorem skew_add : skew (u + v) = skew u + skew v := ext_apply fun _ => by simp
@[simp] theorem skew_sub : skew (u - v) = skew u - skew v := ext_apply fun _ => by simp
@[simp] theorem skew_neg : skew (-v) = -skew v := ext_apply fun _ => by simp
@[simp] theorem skew_smul : skew (s • v) = s • skew v := ext_apply fun _ => by simp
@[simp] theorem skew_zero : skew (0 : Vec3 ℝ) = 0 := ext_apply fun _ => by simp

theorem skew_eq_zero_iff : skew v = 0 ↔ v = 0 := by
  refine ⟨fun h => ?_, fun h => by rw [h, skew_zero]⟩
  exact Vec3.ext (congrArg (·.r3.y) h) (congrArg (·.r1.z) h) (congrArg (·.r2.x) h)

theorem skew_inj : skew u = skew v ↔ u = v := by
  rw [← sub_eq_zero, ← skew_sub, skew_eq_zero_iff, sub_eq_zero]

@[simp] theorem outer_apply : (outer u v).apply w = v.dot w • u := by
  ext <;> simp [outer, mul_comm]

@[simp] theorem outer_transpose : (outer u v).transpose = outer v u := by
  ext <;> simp [outer, c1_eq, c2_eq, c3_eq, mul_comm]

@[simp] theorem diagonal_apply : (diagonal u).apply v = ⟨u.x * v.x, u.y * v.y, u.z * v.z⟩ := by
  ext <;> simp [diagonal, Vec3.dot_eq]

/-! ## The determinant -/

/-- The two-by-two determinant by elimination. -/
theorem det2_real (x y z w : ℝ) : det2 x y z w = x * w - y * z := by
  unfold det2
  simp only [Scalar.lt_real, Scalar.magnitude_real, Scalar.isZero_real]
  split
  · rename_i h
    have hz : z ≠ 0 := abs_pos.mp (lt_of_le_of_lt (abs_nonneg x) h)
    rw [if_neg hz]
    change -(z * (y - x / z * w)) = _
    field_simp
    ring
  · rename_i h
    split
    · rename_i hx
      have hz : z = 0 := by simpa [hx] using h
      change (0 : ℝ) = _
      rw [hx, hz]
      ring
    · rename_i hx
      change x * (w - z / x * y) = _
      field_simp

/-- With a pivot that vanishes only where the whole column does, elimination
gives the triple product of the rows. -/
theorem detPivot_real (h : u.x = 0 → v.x = 0 ∧ w.x = 0) :
    detPivot u v w = u.dot (v.cross w) := by
  unfold detPivot
  simp only [Scalar.isZero_real]
  split
  · rename_i hu
    obtain ⟨hv, hw⟩ := h hu
    simp [Vec3.dot_eq, hu, hv, hw]
  · rename_i hu
    rw [det2_real]
    change u.x * ((v.y - v.x / u.x * u.y) * (w.z - w.x / u.x * u.z)
      - (v.z - v.x / u.x * u.z) * (w.y - w.x / u.x * u.y)) = _
    simp only [Vec3.dot_eq, Vec3.cross_x, Vec3.cross_y, Vec3.cross_z]
    field_simp
    ring

/-- **The determinant by elimination is the triple product of the rows**,
whichever entry of the first column was the pivot. -/
theorem det_real : a.det = a.r1.dot (a.r2.cross a.r3) := by
  -- the entry of largest magnitude is zero only if both others are
  have zero_of_le {x y : ℝ} (h : |y| ≤ |x|) (hx : x = 0) : y = 0 := by
    rw [hx, abs_zero] at h
    exact abs_eq_zero.mp (le_antisymm h (abs_nonneg y))
  unfold det
  simp only [Scalar.lt_real, Scalar.magnitude_real]
  split <;> rename_i h12 <;> split <;> rename_i h3
  · rw [detPivot_real _ _ _ fun h =>
      ⟨zero_of_le h3.le h, zero_of_le (h12.trans h3).le h⟩]
    change -(a.r3.dot (a.r2.cross a.r1)) = _
    simp [Vec3.dot_eq]; ring
  · rw [detPivot_real _ _ _ fun h => ⟨zero_of_le h12.le h, zero_of_le (not_lt.mp h3) h⟩]
    change -(a.r2.dot (a.r1.cross a.r3)) = _
    simp [Vec3.dot_eq]; ring
  · rw [detPivot_real _ _ _ fun h =>
      ⟨zero_of_le ((not_lt.mp h12).trans h3.le) h, zero_of_le h3.le h⟩]
    change -(a.r3.dot (a.r2.cross a.r1)) = _
    simp [Vec3.dot_eq]; ring
  · rw [detPivot_real _ _ _ fun h => ⟨zero_of_le (not_lt.mp h12) h, zero_of_le (not_lt.mp h3) h⟩]

end Mat3

end Corotation
