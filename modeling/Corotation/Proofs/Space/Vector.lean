import Mathlib.Tactic
import Corotation.Proofs.Scalar.Real
import Corotation.Space.Vector
/-!
# Vectors over the real numbers

The vectors are a real vector space under their own signs, `scale` being
the action of the numbers. The scalar and the vector product are bilinear,
and the identities of the two that the kinematics rests on are the ones of
the double product and of the exchange in a triple product.
-/

namespace Corotation

namespace Vec3

variable [SeriesAngle] (a b c d : Vec3 ℝ) (s t : ℝ)

/-! ## The vector space -/

@[simp] theorem add_x : (a + b).x = a.x + b.x := rfl
@[simp] theorem add_y : (a + b).y = a.y + b.y := rfl
@[simp] theorem add_z : (a + b).z = a.z + b.z := rfl
@[simp] theorem sub_x : (a - b).x = a.x - b.x := rfl
@[simp] theorem sub_y : (a - b).y = a.y - b.y := rfl
@[simp] theorem sub_z : (a - b).z = a.z - b.z := rfl
@[simp] theorem neg_x : (-a).x = -a.x := rfl
@[simp] theorem neg_y : (-a).y = -a.y := rfl
@[simp] theorem neg_z : (-a).z = -a.z := rfl

noncomputable instance instZeroReal : Zero (Vec3 ℝ) := ⟨zero⟩
noncomputable instance instSMulReal : SMul ℝ (Vec3 ℝ) := ⟨scale⟩

@[simp] theorem zero_x : (0 : Vec3 ℝ).x = 0 := rfl
@[simp] theorem zero_y : (0 : Vec3 ℝ).y = 0 := rfl
@[simp] theorem zero_z : (0 : Vec3 ℝ).z = 0 := rfl
@[simp] theorem smul_x : (s • a).x = s * a.x := rfl
@[simp] theorem smul_y : (s • a).y = s * a.y := rfl
@[simp] theorem smul_z : (s • a).z = s * a.z := rfl

noncomputable instance instAddCommGroupReal : AddCommGroup (Vec3 ℝ) where
  add_assoc u v w := by ext <;> simp [add_assoc]
  zero_add u := by ext <;> simp
  add_zero u := by ext <;> simp
  add_comm u v := by ext <;> simp [add_comm]
  neg_add_cancel u := by ext <;> simp
  sub_eq_add_neg u v := by ext <;> simp [sub_eq_add_neg]
  nsmul := nsmulRec
  zsmul := zsmulRec

noncomputable instance instModuleReal : Module ℝ (Vec3 ℝ) where
  one_smul u := by ext <;> simp
  mul_smul p q u := by ext <;> simp [mul_assoc]
  smul_zero p := by ext <;> simp
  smul_add p u v := by ext <;> simp [mul_add]
  add_smul p q u := by ext <;> simp [add_mul]
  zero_smul u := by ext <;> simp

@[simp] theorem zero_eq : (zero : Vec3 ℝ) = 0 := rfl
@[simp] theorem scale_eq_smul : a.scale s = s • a := rfl

/-- Division is multiplication by the inverse. -/
@[simp] theorem divide_eq_smul : a.divide s = s⁻¹ • a := by
  ext <;> exact div_eq_inv_mul _ _

/-- Every component is zero for the zero vector only. -/
@[simp] theorem isZero_iff : a.IsZero ↔ a = 0 := by
  unfold IsZero
  simp only [Scalar.isZero_real, Vec3.ext_iff, zero_x, zero_y, zero_z]

/-! ## The scalar product -/

theorem dot_eq : a.dot b = a.x * b.x + a.y * b.y + a.z * b.z := rfl

theorem dot_comm : a.dot b = b.dot a := by simp only [dot_eq]; ring

@[simp] theorem add_dot : (a + b).dot c = a.dot c + b.dot c := by simp [dot_eq]; ring
@[simp] theorem dot_add : a.dot (b + c) = a.dot b + a.dot c := by simp [dot_eq]; ring
@[simp] theorem sub_dot : (a - b).dot c = a.dot c - b.dot c := by simp [dot_eq]; ring
@[simp] theorem dot_sub : a.dot (b - c) = a.dot b - a.dot c := by simp [dot_eq]; ring
@[simp] theorem neg_dot : (-a).dot b = -a.dot b := by simp [dot_eq]; ring
@[simp] theorem dot_neg : a.dot (-b) = -a.dot b := by simp [dot_eq]; ring
@[simp] theorem smul_dot : (s • a).dot b = s * a.dot b := by simp [dot_eq]; ring
@[simp] theorem dot_smul : a.dot (s • b) = s * a.dot b := by simp [dot_eq]; ring
@[simp] theorem zero_dot : (0 : Vec3 ℝ).dot a = 0 := by simp [dot_eq]
@[simp] theorem dot_zero : a.dot 0 = 0 := by simp [dot_eq]

/-- A vector is of no negative square. -/
theorem dot_self_nonneg : 0 ≤ a.dot a := by
  rw [dot_eq]
  nlinarith [sq_nonneg a.x, sq_nonneg a.y, sq_nonneg a.z]

/-- Only the zero vector has the square zero. -/
theorem dot_self_eq_zero {a : Vec3 ℝ} : a.dot a = 0 ↔ a = 0 := by
  refine ⟨fun h => ?_, fun h => by rw [h, zero_dot]⟩
  rw [dot_eq] at h
  have hx : a.x = 0 := by nlinarith [sq_nonneg a.x, sq_nonneg a.y, sq_nonneg a.z]
  have hy : a.y = 0 := by nlinarith [sq_nonneg a.x, sq_nonneg a.y, sq_nonneg a.z]
  have hz : a.z = 0 := by nlinarith [sq_nonneg a.x, sq_nonneg a.y, sq_nonneg a.z]
  exact Vec3.ext hx hy hz

/-- A vector is known by its scalar products. -/
theorem ext_dot {a b : Vec3 ℝ} (h : ∀ c : Vec3 ℝ, c.dot a = c.dot b) : a = b := by
  have hself : (a - b).dot (a - b) = 0 := by rw [dot_sub, h, sub_self]
  exact sub_eq_zero.mp (dot_self_eq_zero.mp hself)

/-! ## The vector product -/

@[simp] theorem cross_x : (a.cross b).x = a.y * b.z - a.z * b.y := rfl
@[simp] theorem cross_y : (a.cross b).y = a.z * b.x - a.x * b.z := rfl
@[simp] theorem cross_z : (a.cross b).z = a.x * b.y - a.y * b.x := rfl

@[simp] theorem add_cross : (a + b).cross c = a.cross c + b.cross c := by ext <;> simp <;> ring
@[simp] theorem cross_add : a.cross (b + c) = a.cross b + a.cross c := by ext <;> simp <;> ring
@[simp] theorem sub_cross : (a - b).cross c = a.cross c - b.cross c := by ext <;> simp <;> ring
@[simp] theorem cross_sub : a.cross (b - c) = a.cross b - a.cross c := by ext <;> simp <;> ring
@[simp] theorem neg_cross : (-a).cross b = -a.cross b := by ext <;> simp <;> ring
@[simp] theorem cross_neg : a.cross (-b) = -a.cross b := by ext <;> simp <;> ring
@[simp] theorem smul_cross : (s • a).cross b = s • a.cross b := by ext <;> simp <;> ring
@[simp] theorem cross_smul : a.cross (s • b) = s • a.cross b := by ext <;> simp <;> ring
@[simp] theorem zero_cross : (0 : Vec3 ℝ).cross a = 0 := by ext <;> simp
@[simp] theorem cross_zero : a.cross 0 = 0 := by ext <;> simp
@[simp] theorem cross_self : a.cross a = 0 := by ext <;> simp <;> ring

/-- Exchanging the factors changes the sign. -/
theorem cross_anticomm : a.cross b = -b.cross a := by ext <;> simp <;> ring

/-- The double product. -/
theorem cross_cross : a.cross (b.cross c) = (a.dot c) • b - (a.dot b) • c := by
  ext <;> simp [dot_eq] <;> ring

/-- The double product with the inner one first. -/
theorem cross_cross_left : (a.cross b).cross c = (a.dot c) • b - (b.dot c) • a := by
  ext <;> simp [dot_eq] <;> ring

/-- **The identity of Jacobi**: a vector product with a vector product is one in
both factors in turn. -/
theorem cross_jacobi : b.cross (a.cross c) + c.cross (b.cross a) = a.cross (b.cross c) := by
  rw [cross_cross, cross_cross, cross_cross, dot_comm c b, dot_comm c a, dot_comm b a]
  abel

/-- The factors of a triple product go around. -/
theorem dot_cross : a.dot (b.cross c) = (a.cross b).dot c := by
  simp [dot_eq]; ring

@[simp] theorem dot_cross_self_left : a.dot (a.cross b) = 0 := by simp [dot_eq]; ring
@[simp] theorem dot_cross_self_right : a.dot (b.cross a) = 0 := by simp [dot_eq]; ring

/-- The scalar product of two vector products. -/
theorem cross_dot_cross :
    (a.cross b).dot (c.cross d) = a.dot c * b.dot d - a.dot d * b.dot c := by
  simp [dot_eq]; ring

/-! ## The length -/

theorem norm_eq : a.norm = Real.sqrt (a.dot a) := rfl

theorem norm_nonneg : 0 ≤ a.norm := Real.sqrt_nonneg _

theorem norm_mul_self : a.norm * a.norm = a.dot a := Real.mul_self_sqrt a.dot_self_nonneg

/-- Only the zero vector has no length. -/
theorem norm_eq_zero {a : Vec3 ℝ} : a.norm = 0 ↔ a = 0 := by
  rw [norm_eq, Real.sqrt_eq_zero a.dot_self_nonneg, dot_self_eq_zero]

theorem norm_pos {a : Vec3 ℝ} (h : a ≠ 0) : 0 < a.norm :=
  lt_of_le_of_ne a.norm_nonneg fun h' => h (norm_eq_zero.mp h'.symm)

@[simp] theorem norm_zero : (0 : Vec3 ℝ).norm = 0 := norm_eq_zero.mpr rfl

@[simp] theorem norm_neg : (-a).norm = a.norm := by rw [norm_eq, neg_dot, dot_neg, neg_neg, norm_eq]

theorem norm_smul : (s • a).norm = |s| * a.norm := by
  rw [norm_eq, smul_dot, dot_smul, ← mul_assoc, Real.sqrt_mul (mul_self_nonneg s),
    Real.sqrt_mul_self_eq_abs, norm_eq]

/-- A vector divided by its length has length one. -/
theorem dot_divide_norm {a : Vec3 ℝ} (h : 0 < a.norm) :
    (a.norm⁻¹ • a).dot (a.norm⁻¹ • a) = 1 := by
  rw [smul_dot, dot_smul, ← norm_mul_self]
  field_simp

/-- A vector is its length times its direction. -/
theorem norm_smul_divide {a : Vec3 ℝ} (h : 0 < a.norm) : a.norm • (a.norm⁻¹ • a) = a := by
  rw [smul_smul, mul_inv_cancel₀ h.ne', one_smul]

end Vec3

end Corotation
