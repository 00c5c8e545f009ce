import Corotation.Proofs.Space.Rate
import Corotation.Rotation.Versor
/-!
# Versors over the real numbers

The square of a quaternion multiplies with the Hamilton product, and so does
its matrix. A quaternion of square one therefore has a rotation for its
matrix, and increments composed from the left multiply matrices from the
left. The quaternion of a rotation vector never vanishes, so a composition
is never refused; `turn` is the versor that it applies.

Main statement: the matrix of a growing increment leaves the identity with
the spin of the increment (`hasRate_turn_toMatrix`).
-/

open Topology

namespace Corotation

namespace Versor

/-- The sum of the squares of the components. -/
noncomputable def square (q : Versor ℝ) : ℝ := q.x * q.x + q.y * q.y + q.z * q.z + q.w * q.w

theorem square_nonneg (q : Versor ℝ) : 0 ≤ q.square := by
  unfold square
  nlinarith [sq_nonneg q.x, sq_nonneg q.y, sq_nonneg q.z, sq_nonneg q.w]

/-- A quaternion is known by its vector and its scalar part. -/
theorem ext_vector {p q : Versor ℝ} (hv : p.vector = q.vector) (hw : p.w = q.w) : p = q :=
  Versor.ext (congrArg Vec3.x hv) (congrArg Vec3.y hv) (congrArg Vec3.z hv) hw

variable [SeriesAngle] {p q : Versor ℝ} {v : Vec3 ℝ} {s : ℝ}

theorem square_eq (q : Versor ℝ) : q.square = q.vector.dot q.vector + q.w * q.w := rfl

theorem norm_eq (q : Versor ℝ) : q.norm = Real.sqrt q.square := rfl

theorem norm_mul_self (q : Versor ℝ) : q.norm * q.norm = q.square :=
  Real.mul_self_sqrt q.square_nonneg

/-! ## The matrix -/

/-- The matrix of a quaternion by its vector and its scalar part. -/
theorem toMatrix_eq (q : Versor ℝ) :
    q.toMatrix = (q.w * q.w - q.vector.dot q.vector) • (1 : Mat3 ℝ)
      + (2 : ℝ) • Mat3.outer q.vector q.vector + (2 * q.w) • Mat3.skew q.vector := by
  have h : q.toMatrix =
      ⟨⟨q.x * q.x - q.y * q.y - q.z * q.z + q.w * q.w, 2 * (q.x * q.y - q.z * q.w),
        2 * (q.x * q.z + q.y * q.w)⟩,
       ⟨2 * (q.x * q.y + q.z * q.w), -(q.x * q.x) + q.y * q.y - q.z * q.z + q.w * q.w,
        2 * (q.y * q.z - q.x * q.w)⟩,
       ⟨2 * (q.x * q.z - q.y * q.w), 2 * (q.y * q.z + q.x * q.w),
        -(q.x * q.x) - q.y * q.y + q.z * q.z + q.w * q.w⟩⟩ := rfl
  rw [h]
  ext <;> simp [Mat3.outer, Mat3.skew_eq, vector, Vec3.dot_eq] <;> ring

/-- The matrix turns a vector by two vector products. -/
theorem toMatrix_apply (q : Versor ℝ) (u : Vec3 ℝ) :
    q.toMatrix.apply u = (q.w * q.w - q.vector.dot q.vector) • u
      + (2 * q.vector.dot u) • q.vector + (2 * q.w) • q.vector.cross u := by
  rw [toMatrix_eq]
  simp [smul_smul]

/-- The square of a product. -/
theorem hamilton_square (p q : Versor ℝ) : (hamilton p q).square = p.square * q.square := by
  change (p.w * q.x + q.w * p.x + (p.y * q.z - p.z * q.y))
        * (p.w * q.x + q.w * p.x + (p.y * q.z - p.z * q.y))
      + (p.w * q.y + q.w * p.y + (p.z * q.x - p.x * q.z))
        * (p.w * q.y + q.w * p.y + (p.z * q.x - p.x * q.z))
      + (p.w * q.z + q.w * p.z + (p.x * q.y - p.y * q.x))
        * (p.w * q.z + q.w * p.z + (p.x * q.y - p.y * q.x))
      + (p.w * q.w - p.x * q.x - p.y * q.y - p.z * q.z)
        * (p.w * q.w - p.x * q.x - p.y * q.y - p.z * q.z) = _
  unfold square
  ring

theorem hamilton_vector (p q : Versor ℝ) :
    (hamilton p q).vector = p.w • q.vector + q.w • p.vector + p.vector.cross q.vector := rfl

theorem hamilton_w (p q : Versor ℝ) : (hamilton p q).w = p.w * q.w - p.vector.dot q.vector := by
  change p.w * q.w - p.x * q.x - p.y * q.y - p.z * q.z
    = p.w * q.w - (p.x * q.x + p.y * q.y + p.z * q.z)
  ring

/-- **Matrices multiply with the Hamilton product.** -/
theorem toMatrix_hamilton (p q : Versor ℝ) :
    (hamilton p q).toMatrix = p.toMatrix * q.toMatrix := by
  refine Mat3.ext_apply fun u => ?_
  rw [Mat3.mul_apply, toMatrix_apply, toMatrix_apply p, toMatrix_apply q, hamilton_vector,
    hamilton_w]
  ext <;> simp [Vec3.dot_eq, vector] <;> ring

/-- The matrix times its transpose. -/
theorem toMatrix_mul_transpose (q : Versor ℝ) :
    q.toMatrix * q.toMatrix.transpose = (q.square * q.square) • (1 : Mat3 ℝ) := by
  rw [toMatrix_eq]
  ext <;> simp [Mat3.outer, Mat3.skew_eq, Vec3.dot_eq, Mat3.c1_eq, Mat3.c2_eq, Mat3.c3_eq, vector,
    square] <;> ring

theorem det_toMatrix (q : Versor ℝ) : q.toMatrix.det = q.square * q.square * q.square := by
  rw [Mat3.det_real, toMatrix_eq]
  simp [Mat3.outer, Mat3.skew_eq, Vec3.dot_eq, vector, square]
  ring

/-- **The matrix of a versor is a rotation.** -/
theorem isRotation_toMatrix (h : q.square = 1) : q.toMatrix.IsRotation where
  mul_transpose := by rw [toMatrix_mul_transpose, h, one_mul, one_smul]
  det_eq_one := by rw [det_toMatrix, h, one_mul, one_mul]

/-! ## Normalization -/

theorem divide_vector (q : Versor ℝ) (s : ℝ) : (q.divide s).vector = s⁻¹ • q.vector := by
  ext <;> exact div_eq_inv_mul _ _

theorem divide_w (q : Versor ℝ) (s : ℝ) : (q.divide s).w = s⁻¹ * q.w := div_eq_inv_mul _ _

theorem divide_square (q : Versor ℝ) (s : ℝ) : (q.divide s).square = (s * s)⁻¹ * q.square := by
  rw [square_eq, divide_vector, divide_w, square_eq, Vec3.smul_dot, Vec3.dot_smul, mul_inv]
  ring

theorem toMatrix_divide (q : Versor ℝ) (s : ℝ) :
    (q.divide s).toMatrix = (s * s)⁻¹ • q.toMatrix := by
  refine Mat3.ext_apply fun u => ?_
  rw [Mat3.smul_apply, toMatrix_apply, toMatrix_apply, divide_vector, divide_w, mul_inv]
  simp only [Vec3.smul_dot, Vec3.dot_smul, Vec3.smul_cross]
  module

/-- A quaternion that does not vanish is normalized to a versor. -/
theorem normalize_square (h : 0 < q.square) : q.normalize.square = 1 := by
  rw [normalize, divide_square, norm_mul_self, inv_mul_cancel₀ h.ne']

theorem toMatrix_normalize (q : Versor ℝ) : q.normalize.toMatrix = q.square⁻¹ • q.toMatrix := by
  rw [normalize, toMatrix_divide, norm_mul_self]

theorem divide_one (q : Versor ℝ) : q.divide 1 = q := by
  ext <;> exact div_one _

/-- A product is normalized by normalizing its left factor, if the right one
is a versor. -/
theorem hamilton_normalize (p : Versor ℝ) (h : q.square = 1) :
    (hamilton p q).divide (hamilton p q).norm = hamilton p.normalize q := by
  have hn : (hamilton p q).norm = p.norm := by rw [norm_eq, hamilton_square, h, mul_one, norm_eq]
  have hv : ((hamilton p q).divide p.norm).vector = (hamilton p.normalize q).vector := by
    rw [divide_vector, hamilton_vector, hamilton_vector, normalize, divide_vector, divide_w]
    simp only [Vec3.smul_cross]
    module
  have hw : ((hamilton p q).divide p.norm).w = (hamilton p.normalize q).w := by
    rw [divide_w, hamilton_w, hamilton_w, normalize, divide_vector, divide_w, Vec3.smul_dot]
    ring
  rw [hn]
  exact ext_vector hv hw

/-! ## Increments -/

/-- The half-angle quotient of an increment. -/
theorem halfSine_eq (a : ℝ) :
    halfSine a = if a ≤ SeriesAngle.angle then 1 / 2 - a * a / 48 + a * a * (a * a) / 3840
      else Real.sin (a / 2) / a := by
  unfold halfSine
  simp only [Scalar.le_real]
  rfl

theorem ofVector_vector (v : Vec3 ℝ) : (ofVector v).vector = halfSine v.norm • v := rfl

theorem ofVector_w (v : Vec3 ℝ) : (ofVector v).w = Real.cos (v.norm / 2) := rfl

theorem ofVector_square (v : Vec3 ℝ) :
    (ofVector v).square = (halfSine v.norm * v.norm) ^ 2 + Real.cos (v.norm / 2) ^ 2 := by
  rw [square_eq, ofVector_vector, ofVector_w, Vec3.smul_dot, Vec3.dot_smul, ← Vec3.norm_mul_self]
  ring

/-- **The quaternion of a rotation vector does not vanish.** The series has no
zero, and where the cosine of the half angle vanishes its sine does not. -/
theorem ofVector_square_pos (v : Vec3 ℝ) : 0 < (ofVector v).square := by
  rw [ofVector_square, halfSine_eq]
  set a := v.norm
  by_cases hc : Real.cos (a / 2) = 0
  · have ha : a ≠ 0 := by
      rintro ha
      rw [ha, zero_div, Real.cos_zero] at hc
      exact one_ne_zero hc
    have hk : (if a ≤ SeriesAngle.angle then 1 / 2 - a * a / 48 + a * a * (a * a) / 3840
        else Real.sin (a / 2) / a) ≠ 0 := by
      split
      · nlinarith [sq_nonneg (a * a - 40)]
      · have hs : Real.sin (a / 2) ≠ 0 := by
          intro hs
          have := Real.sin_sq_add_cos_sq (a / 2)
          rw [hs, hc] at this
          norm_num at this
        exact div_ne_zero hs ha
    have := mul_ne_zero hk ha
    positivity
  · positivity

/-- The versor that a composition with an increment applies. -/
noncomputable def turn (v : Vec3 ℝ) : Versor ℝ := (ofVector v).normalize

theorem turn_square (v : Vec3 ℝ) : (turn v).square = 1 := normalize_square (ofVector_square_pos v)

theorem isRotation_turn (v : Vec3 ℝ) : (turn v).toMatrix.IsRotation :=
  isRotation_toMatrix (turn_square v)

theorem hamilton_turn_square (v : Vec3 ℝ) (h : q.square = 1) :
    (hamilton (turn v) q).square = 1 := by rw [hamilton_square, turn_square, h, one_mul]

/-- Beyond the series the quaternion of a rotation vector is a versor. -/
theorem ofVector_square_of_lt (h0 : 0 ≤ SeriesAngle.angle) (h : SeriesAngle.angle < v.norm) :
    (ofVector v).square = 1 := by
  have hpos : v.norm ≠ 0 := (h0.trans_lt h).ne'
  rw [ofVector_square, halfSine_eq, if_neg (not_le.mpr h), div_mul_cancel₀ _ hpos,
    Real.sin_sq_add_cos_sq]

theorem turn_eq_ofVector (h0 : 0 ≤ SeriesAngle.angle) (h : SeriesAngle.angle < v.norm) :
    turn v = ofVector v := by
  rw [turn, normalize, norm_eq, ofVector_square_of_lt h0 h, Real.sqrt_one, divide_one]

/-- **A composition with a versor is never refused.** It multiplies by the
versor of the increment from the left. -/
theorem compose_eq (v : Vec3 ℝ) (h : q.square = 1) :
    compose v q = .ok (hamilton (turn v) q) := by
  have hn : (hamilton (ofVector v) q).norm ≠ 0 := by
    rw [norm_eq, hamilton_square, h, mul_one]
    exact (Real.sqrt_pos.mpr (ofVector_square_pos v)).ne'
  unfold compose mul
  simp only [Scalar.isZero_real, Scalar.isNumber_real, not_true_eq_false, or_false, if_neg hn]
  rw [hamilton_normalize _ h, turn]

/-- No increment has the rotation by no angle. -/
theorem ofVector_zero : ofVector 0 = (identity : Versor ℝ) := by
  have hv : (ofVector (0 : Vec3 ℝ)).vector = 0 := by rw [ofVector_vector, smul_zero]
  have hw : (ofVector (0 : Vec3 ℝ)).w = 1 := by
    rw [ofVector_w, Vec3.norm_zero, zero_div, Real.cos_zero]
  exact ext_vector hv hw

theorem identity_square : (identity : Versor ℝ).square = 1 := by simp [identity, square]

/-- No increment turns nothing. -/
theorem turn_zero : turn 0 = (identity : Versor ℝ) := by
  rw [turn, ofVector_zero, normalize, norm_eq, identity_square, Real.sqrt_one, divide_one]

theorem hamilton_identity (q : Versor ℝ) : hamilton identity q = q := by
  have hv : (hamilton identity q).vector = q.vector := by
    rw [hamilton_vector]
    ext <;> simp [identity, vector]
  have hw : (hamilton identity q).w = q.w := by
    rw [hamilton_w]
    simp [identity, vector, Vec3.dot_eq]
  exact ext_vector hv hw

theorem toMatrix_identity : (identity : Versor ℝ).toMatrix = 1 := by
  refine Mat3.ext_apply fun u => ?_
  rw [toMatrix_apply]
  simp [identity, vector, Vec3.ext_iff, Vec3.dot_eq]

/-- Turns one after the other multiply their matrices, the later one from the left. -/
theorem toMatrix_foldl_turn (increments : List (Vec3 ℝ)) (q : Versor ℝ) :
    (increments.foldl (fun q v => hamilton (turn v) q) q).toMatrix
      = (increments.map fun v => (turn v).toMatrix).reverse.prod * q.toMatrix := by
  induction increments generalizing q with
  | nil => exact (one_mul _).symm
  | cons v increments ih =>
    rw [List.foldl_cons, ih, toMatrix_hamilton, List.map_cons, List.reverse_cons,
      List.prod_append, List.prod_singleton, mul_assoc]

/-! ## The spin of a growing increment -/

/-- Near angle zero the half-angle quotient is one half, whichever way it is
taken. -/
theorem abs_halfSine_sub_le (h0 : 0 ≤ SeriesAngle.angle) {a : ℝ} (ha : 0 ≤ a) (ha1 : a ≤ 1) :
    |halfSine a - 1 / 2| ≤ a * a := by
  have hsq : 0 ≤ a * a := mul_nonneg ha ha
  have hsq1 : a * a ≤ 1 := by nlinarith
  rw [halfSine_eq, abs_le]
  split
  · constructor <;> nlinarith [mul_nonneg hsq hsq]
  · rename_i hs
    have hpos : 0 < a := lt_of_le_of_lt h0 (not_le.mp hs)
    have hlt : Real.sin (a / 2) < a / 2 := Real.sin_lt (half_pos hpos)
    have hgt : a / 2 - (a / 2) ^ 3 / 6 < Real.sin (a / 2) := Real.sin_gt_sub_cube (half_pos hpos)
    have hupper : Real.sin (a / 2) / a ≤ 1 / 2 := by
      rw [div_le_iff₀ hpos]
      linarith
    have hlower : 1 / 2 - a * a ≤ Real.sin (a / 2) / a := by
      rw [le_div_iff₀ hpos]
      nlinarith [pow_pos hpos 3]
    constructor <;> linarith

/-- The half-angle quotient along a growing increment. -/
theorem continuousAt_halfSine (h0 : 0 ≤ SeriesAngle.angle) (v : Vec3 ℝ) :
    halfSine (0 : ℝ) = 1 / 2 ∧ ContinuousAt (fun t : ℝ => halfSine (t • v).norm) 0 := by
  refine continuousAt_of_abs_sub_le (fun a => abs_halfSine_sub_le h0) ?_ ?_ fun t =>
    Vec3.norm_nonneg _
  · simp only [Vec3.norm_smul]
    fun_prop
  · rw [zero_smul, Vec3.norm_zero]

/-- A growing increment starts with half its own rate in the vector part. -/
theorem hasRate_ofVector (h0 : 0 ≤ SeriesAngle.angle) (v : Vec3 ℝ) :
    Vec3.HasRate (fun t : ℝ => (ofVector (t • v)).vector) ((1 / 2 : ℝ) • v) 0 := by
  obtain ⟨hk, hcont⟩ := continuousAt_halfSine h0 v
  have hline : Vec3.HasRate (fun t : ℝ => t • v) v 0 :=
    (Vec3.HasRate.smul_const (hasDerivAt_id 0) v).congr_rate (one_smul ℝ v)
  refine (Vec3.HasRate.smul_of_zero hcont hline (zero_smul ℝ v)).congr_rate ?_
  rw [zero_smul, Vec3.norm_zero, hk]

/-- And its scalar part starts at rest. -/
theorem hasDerivAt_ofVector_w (v : Vec3 ℝ) :
    HasDerivAt (fun t : ℝ => (ofVector (t • v)).w) 0 0 := by
  -- the cosine is even, so the sign of the length is of no account
  have heven : (fun t : ℝ => (ofVector (t • v)).w) = fun t => Real.cos (t * (v.norm / 2)) := by
    funext t
    rw [ofVector_w, Vec3.norm_smul, ← Real.cos_abs (t * _), abs_mul,
      abs_of_nonneg (div_nonneg v.norm_nonneg zero_le_two), mul_div_assoc]
  rw [heven]
  refine (((hasDerivAt_id (0 : ℝ)).mul_const (v.norm / 2)).cos).congr_deriv ?_
  simp

/-- The rate of the square of a moving quaternion. -/
theorem hasDerivAt_square {q : ℝ → Versor ℝ} {w t : ℝ}
    (hv : Vec3.HasRate (fun s => (q s).vector) v t) (hw : HasDerivAt (fun s => (q s).w) w t) :
    HasDerivAt (fun s => (q s).square) (2 * ((q t).vector.dot v + (q t).w * w)) t := by
  refine ((hv.dot hv).add (hw.mul hw)).congr_deriv ?_
  rw [Vec3.dot_comm v]
  ring

/-- The rate of the matrix of a moving quaternion. -/
theorem hasRate_toMatrix {q : ℝ → Versor ℝ} {w t : ℝ}
    (hv : Vec3.HasRate (fun s => (q s).vector) v t) (hw : HasDerivAt (fun s => (q s).w) w t) :
    Mat3.HasRate (fun s => (q s).toMatrix)
      ((2 * ((q t).w * w - (q t).vector.dot v)) • (1 : Mat3 ℝ)
        + (2 : ℝ) • (Mat3.outer v (q t).vector + Mat3.outer (q t).vector v)
        + ((2 * w) • Mat3.skew (q t).vector + (2 * (q t).w) • Mat3.skew v)) t := by
  have hscalar : HasDerivAt (fun s => (q s).w * (q s).w - (q s).vector.dot (q s).vector)
      (2 * ((q t).w * w - (q t).vector.dot v)) t := by
    refine ((hw.mul hw).sub (hv.dot hv)).congr_deriv ?_
    rw [Vec3.dot_comm v]
    ring
  simp only [toMatrix_eq]
  refine (((Mat3.HasRate.smul hscalar (.const 1 t)).add
    (Mat3.HasRate.smul (hasDerivAt_const t 2) (.outer hv hv))).add
    (Mat3.HasRate.smul (hw.const_mul 2) (.skew hv))).congr_rate ?_
  rw [smul_zero, add_zero, zero_smul, zero_add]

/-- **A growing increment turns with its own spin.** -/
theorem hasRate_turn_toMatrix (h0 : 0 ≤ SeriesAngle.angle) (v : Vec3 ℝ) :
    Mat3.HasRate (fun t : ℝ => (turn (t • v)).toMatrix) (Mat3.skew v) 0 := by
  have hv := hasRate_ofVector h0 v
  have hw := hasDerivAt_ofVector_w v
  have hv0 : (ofVector ((0 : ℝ) • v)).vector = 0 := by
    rw [ofVector_vector, zero_smul, smul_zero]
  have hw0 : (ofVector ((0 : ℝ) • v)).w = 1 := by
    rw [ofVector_w, zero_smul, Vec3.norm_zero, zero_div, Real.cos_zero]
  have hsquare : (ofVector ((0 : ℝ) • v)).square = 1 := by
    rw [square_eq, hv0, hw0, Vec3.zero_dot, zero_add, mul_one]
  have hinv : HasDerivAt (fun t : ℝ => (ofVector (t • v)).square⁻¹) 0 0 := by
    refine ((hasDerivAt_square hv hw).inv (ofVector_square_pos _).ne').congr_deriv ?_
    rw [hv0, Vec3.zero_dot, mul_zero, add_zero, mul_zero, neg_zero, zero_div]
  simp only [turn, toMatrix_normalize]
  refine (Mat3.HasRate.smul hinv (hasRate_toMatrix hv hw)).congr_rate ?_
  rw [hsquare, hv0, hw0]
  refine Mat3.ext_apply fun u => ?_
  simp [smul_smul]

end Versor

end Corotation
