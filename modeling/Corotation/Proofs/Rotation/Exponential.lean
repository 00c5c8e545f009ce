import Mathlib.Analysis.Normed.Algebra.MatrixExponential
import Mathlib.Analysis.SpecialFunctions.Exponential
import Mathlib.Analysis.SpecialFunctions.Trigonometric.Deriv
import Corotation.Proofs.Rotation.Versor
import Corotation.Proofs.Space.Coordinates
/-!
# The rotation of an increment

Where it is not read from the series, the versor of an increment has the
matrix of its angle and axis (`turn_of_lt`). That matrix is a flow: along the
multiples of the increment it moves by its own product with the matrix of the
vector product, as the exponential does. So with exact rotations it is the
exponential (`turn_eq_exp`).

An increment leaves its own axis alone, whichever way its versor is taken. So
increments about different axes do not add up (`exists_turn_mul_ne`).
-/

namespace Corotation

/-! ## An exponential in closed form -/

section Flow

open scoped Matrix.Norms.Operator

variable {A : Matrix (Fin 3) (Fin 3) ℝ} {a : ℝ}

/-- The rotation by a multiple of an angle, from a matrix for the axis. -/
noncomputable def turnedBy (A : Matrix (Fin 3) (Fin 3) ℝ) (a s : ℝ) :
    Matrix (Fin 3) (Fin 3) ℝ :=
  1 + (Real.sin (s * a) / a) • A + ((1 - Real.cos (s * a)) / (a * a)) • (A * A)

/-- **It flows by the matrix**, where the matrix repeats itself after three
factors. -/
theorem hasDerivAt_turnedBy (ha : a ≠ 0) (hcube : A * (A * A) = -(a * a) • A) (s : ℝ) :
    HasDerivAt (turnedBy A a) (A * turnedBy A a s) s := by
  have hangle : HasDerivAt (fun s : ℝ => s * a) a s := by
    simpa using (hasDerivAt_id s).mul_const a
  have hsin : HasDerivAt (fun s => Real.sin (s * a) / a) (Real.cos (s * a)) s := by
    refine (hangle.sin.div_const a).congr_deriv ?_
    field_simp
  have hcos : HasDerivAt (fun s => (1 - Real.cos (s * a)) / (a * a)) (Real.sin (s * a) / a) s := by
    refine ((hangle.cos.const_sub 1).div_const (a * a)).congr_deriv ?_
    field_simp
  have hback : (1 - Real.cos (s * a)) / (a * a) * -(a * a) = Real.cos (s * a) - 1 := by
    field_simp
    ring
  refine (((hsin.smul_const A).const_add 1).add (hcos.smul_const (A * A))).congr_deriv ?_
  simp only [turnedBy, mul_add, mul_one, mul_smul_comm, hcube, smul_smul, hback]
  module

/-- **So it is the exponential.** -/
theorem exp_eq_turnedBy (ha : a ≠ 0) (hcube : A * (A * A) = -(a * a) • A) :
    NormedSpace.exp A = turnedBy A a 1 := by
  -- the exponential of the opposite matrix takes the flow back to its start
  have hflow (s : ℝ) : HasDerivAt (fun s : ℝ => NormedSpace.exp (s • -A) * turnedBy A a s) 0 s := by
    refine ((hasDerivAt_exp_smul_const (-A) s).mul (hasDerivAt_turnedBy ha hcube s)).congr_deriv ?_
    noncomm_ring
  have hconst := is_const_of_deriv_eq_zero (fun s => (hflow s).differentiableAt)
    (fun s => (hflow s).deriv) 1 0
  have hend : NormedSpace.exp (-A) * turnedBy A a 1 = 1 := by
    have hstart : turnedBy A a 0 = 1 := by simp [turnedBy]
    simpa [hstart] using hconst
  have hinverse : NormedSpace.exp A * NormedSpace.exp (-A) = 1 := by
    rw [← Matrix.exp_add_of_commute _ _ (Commute.refl A).neg_right, add_neg_cancel,
      NormedSpace.exp_zero]
  calc NormedSpace.exp A
      = NormedSpace.exp A * (NormedSpace.exp (-A) * turnedBy A a 1) := by rw [hend, mul_one]
    _ = turnedBy A a 1 := by rw [← mul_assoc, hinverse, one_mul]

end Flow

namespace Mat3

variable [SeriesAngle]

/-- The vector product three times is the opposite one, but for the square of
the length. -/
theorem skew_cube (v : Vec3 ℝ) : skew v * (skew v * skew v) = -(v.norm * v.norm) • skew v :=
  ext_apply fun u => by simp [Vec3.cross_cross, Vec3.norm_mul_self]

/-- The rotation by the length of a vector about its direction. -/
noncomputable def turning (v : Vec3 ℝ) : Mat3 ℝ :=
  1 + (Real.sin v.norm / v.norm) • skew v
    + ((1 - Real.cos v.norm) / (v.norm * v.norm)) • (skew v * skew v)

/-- **It is the exponential of the vector product.** -/
theorem exp_skew {v : Vec3 ℝ} (hv : v ≠ 0) :
    NormedSpace.exp (skew v).entries = (turning v).entries := by
  have hcube : (skew v).entries * ((skew v).entries * (skew v).entries)
      = -(v.norm * v.norm) • (skew v).entries := by
    rw [← entries_mul, ← entries_mul, skew_cube, entries_smul]
  rw [exp_eq_turnedBy (Vec3.norm_pos hv).ne' hcube, turnedBy, one_mul, turning]
  simp

end Mat3

namespace Versor

variable [SeriesAngle] {v : Vec3 ℝ}

/-- **Beyond the series** the versor of an increment turns by its length about
its direction. -/
theorem turn_of_lt (h0 : 0 ≤ SeriesAngle.angle) (h : SeriesAngle.angle < v.norm) :
    (turn v).toMatrix = Mat3.turning v := by
  have hpos : 0 < v.norm := h0.trans_lt h
  have hk : halfSine v.norm = Real.sin (v.norm / 2) / v.norm := by
    rw [halfSine_eq, if_neg (not_le.mpr h)]
  have hdouble : v.norm = 2 * (v.norm / 2) := by ring
  have hsin : Real.sin v.norm / v.norm = 2 * Real.cos (v.norm / 2) * halfSine v.norm := by
    rw [hk, hdouble, Real.sin_two_mul, ← hdouble]
    ring
  have hcos : (1 - Real.cos v.norm) / (v.norm * v.norm)
      = 2 * (halfSine v.norm * halfSine v.norm) := by
    rw [hk, hdouble, Real.cos_two_mul, ← hdouble]
    field_simp
    linear_combination -2 * Real.sin_sq_add_cos_sq (v.norm / 2)
  have hdot : Real.cos (v.norm / 2) * Real.cos (v.norm / 2)
      - halfSine v.norm * (halfSine v.norm * v.dot v)
        = 1 - 2 * (halfSine v.norm * halfSine v.norm) * v.dot v := by
    have hs := ofVector_square v
    rw [ofVector_square_of_lt h0 h, mul_pow, sq v.norm, Vec3.norm_mul_self] at hs
    linear_combination -hs
  refine Mat3.ext_apply fun x => ?_
  rw [turn_eq_ofVector h0 h, toMatrix_apply, ofVector_vector, ofVector_w, Mat3.turning, hsin, hcos]
  simp only [Vec3.smul_dot, Vec3.dot_smul, Vec3.smul_cross, hdot, Mat3.add_apply, Mat3.one_apply,
    Mat3.smul_apply, Mat3.mul_apply, Mat3.skew_apply, Vec3.cross_cross]
  module

/-- **With exact rotations** the versor of an increment has the exponential of
its vector product for its matrix. -/
theorem turn_eq_exp (hexact : SeriesAngle.angle = 0) (v : Vec3 ℝ) :
    (turn v).toMatrix.entries = NormedSpace.exp (Mat3.skew v).entries := by
  by_cases hv : v = 0
  · rw [hv, turn_zero, toMatrix_identity, Mat3.skew_zero, Mat3.entries_zero, Mat3.entries_one,
      NormedSpace.exp_zero]
  rw [turn_of_lt hexact.ge (by rw [hexact]; exact Vec3.norm_pos hv), Mat3.exp_skew hv]

/-- An increment about a unit vector turns what is at a right angle to it in the
plane across. -/
theorem turn_smul_apply {a : ℝ} {e u : Vec3 ℝ} (h0 : 0 ≤ SeriesAngle.angle)
    (ha : SeriesAngle.angle < a) (he : e.dot e = 1) (hu : e.dot u = 0) :
    (turn (a • e)).toMatrix.apply u = Real.cos a • u + Real.sin a • e.cross u := by
  have hpos : 0 < a := h0.trans_lt ha
  have hnorm : (a • e).norm = a := by
    rw [Vec3.norm_smul, Vec3.norm_eq, he, Real.sqrt_one, mul_one, abs_of_pos hpos]
  rw [turn_of_lt h0 (hnorm.symm ▸ ha), Mat3.turning, hnorm]
  simp only [Mat3.add_apply, Mat3.one_apply, Mat3.smul_apply, Mat3.mul_apply, Mat3.skew_apply,
    Vec3.smul_cross, Vec3.cross_smul, Vec3.cross_cross, Vec3.smul_dot, hu, he]
  match_scalars <;> field_simp <;> ring

/-- **A turned increment** turns as the increment does, between the turn and its
transpose. -/
theorem toMatrix_turn_apply {g : Mat3 ℝ} (hg : g.IsRotation) (v : Vec3 ℝ) :
    (turn (g.apply v)).toMatrix = g * (turn v).toMatrix * g.transpose := by
  have hvector : (ofVector (g.apply v)).vector = g.apply (ofVector v).vector := by
    rw [ofVector_vector, ofVector_vector, hg.norm_apply, Mat3.apply_smul]
  have hw : (ofVector (g.apply v)).w = (ofVector v).w := by
    rw [ofVector_w, ofVector_w, hg.norm_apply]
  have hsquare : (ofVector (g.apply v)).square = (ofVector v).square := by
    rw [square_eq, square_eq, hvector, hw, hg.dot_apply_apply]
  refine Mat3.ext_apply fun x => ?_
  rw [turn, turn, toMatrix_normalize, toMatrix_normalize, hsquare]
  simp only [Mat3.smul_apply, Mat3.mul_apply, toMatrix_apply, hvector, hw, hg.dot_apply_apply,
    Mat3.apply_dot, Mat3.apply_smul, Mat3.apply_add, hg.apply_cross, hg.apply_transpose_apply]

/-! ## Increments do not add up -/

/-- An increment leaves its own axis alone. -/
theorem turn_apply_self (v : Vec3 ℝ) : (turn v).toMatrix.apply v = v := by
  have hpos := ofVector_square_pos v
  have himage : (ofVector v).toMatrix.apply v = (ofVector v).square • v := by
    rw [toMatrix_apply, square_eq, ofVector_vector]
    simp only [Vec3.smul_dot, Vec3.dot_smul, Vec3.smul_cross, Vec3.cross_self]
    module
  rw [turn, toMatrix_normalize, Mat3.smul_apply, himage, inv_smul_smul₀ hpos.ne']

/-- Where the cosine of half its length is zero, an increment turns by half a
revolution. -/
theorem turn_apply_of_cos_eq_zero (h : Real.cos (v.norm / 2) = 0) (u : Vec3 ℝ) :
    (turn v).toMatrix.apply u = (2 * v.dot u / v.dot v) • v - u := by
  have hpos := ofVector_square_pos v
  have hsquare : (ofVector v).square = halfSine v.norm * halfSine v.norm * v.dot v := by
    rw [square_eq, ofVector_vector, ofVector_w, h, Vec3.smul_dot, Vec3.dot_smul]
    ring
  rw [hsquare] at hpos
  have hv : v.dot v ≠ 0 := fun hv => by
    rw [hv, mul_zero] at hpos
    exact hpos.false
  have hk : halfSine v.norm ≠ 0 := fun hk => by
    rw [hk, zero_mul, zero_mul] at hpos
    exact hpos.false
  rw [turn, toMatrix_normalize, Mat3.smul_apply, hsquare, toMatrix_apply, ofVector_vector,
    ofVector_w, h]
  simp only [Vec3.smul_dot, Vec3.dot_smul, Vec3.smul_cross]
  match_scalars <;> field_simp <;> ring

/-- **The rotations of two increments are not that of their sum**, for some two
increments. -/
theorem exists_turn_mul_ne : ∃ u v : Vec3 ℝ,
    (turn v).toMatrix * (turn u).toMatrix ≠ (turn (u + v)).toMatrix := by
  -- two half revolutions about axes at a right angle
  refine ⟨⟨Real.pi, 0, 0⟩, ⟨0, Real.pi, 0⟩, fun heq => ?_⟩
  have hnorm {w : Vec3 ℝ} (hw : w.dot w = Real.pi * Real.pi) : Real.cos (w.norm / 2) = 0 := by
    rw [Vec3.norm_eq, hw, Real.sqrt_mul_self Real.pi_pos.le, Real.cos_pi_div_two]
  have hu := turn_apply_of_cos_eq_zero (hnorm (w := ⟨Real.pi, 0, 0⟩) (by simp [Vec3.dot_eq]))
  have hv := turn_apply_of_cos_eq_zero (hnorm (w := ⟨0, Real.pi, 0⟩) (by simp [Vec3.dot_eq]))
  have happly := congrArg (fun m : Mat3 ℝ => (m.apply (⟨Real.pi, 0, 0⟩ + ⟨0, Real.pi, 0⟩)).x) heq
  simp only [turn_apply_self, Mat3.mul_apply, hu, hv] at happly
  simp [Vec3.dot_eq] at happly

end Versor

end Corotation
