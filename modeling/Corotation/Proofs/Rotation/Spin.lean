import Mathlib.Analysis.Real.Pi.Bounds
import Corotation.Proofs.Rotation.Exponential
import Corotation.Proofs.Rotation.Tangent
/-!
# The spin of an exponential

A rotation that is the exponential of a moving vector has a spin: the left
tangent of the exponential at the vector, applied to its rate
(`Mat3.hasRate_turning`). Conversely the vector has a rate wherever it is
continuous and its rotation has one, up to a full turn and but for half a turn
(`Mat3.exists_rate`), since the angle is read from the trace and the direction
from the part that is not symmetric.

Both tangents, and the rotation itself, are made of the vector product with one
vector (`Mat3.around`). Such matrices multiply by their two coefficients, and so
the map from spins to changes of the vector is the inverse of the left tangent
(`Tangent.spinToVector_inverse`), whatever the axis.
-/

open Topology

namespace Corotation

namespace Mat3

variable [SeriesAngle] {f : ℝ → Vec3 ℝ} {R : ℝ → Mat3 ℝ} {m : Mat3 ℝ} {v : Vec3 ℝ} {t : ℝ}

/-! ## Matrices made of one vector product -/

/-- A matrix made of the vector product with one vector. -/
noncomputable def around (v : Vec3 ℝ) (b c : ℝ) : Mat3 ℝ :=
  1 + b • skew v + c • (skew v * skew v)

theorem around_zero (v : Vec3 ℝ) : around v 0 0 = 1 := by simp [around]

theorem around_apply (v u : Vec3 ℝ) (b c : ℝ) :
    (around v b c).apply u = u + b • v.cross u + c • v.cross (v.cross u) := by
  simp [around]

theorem around_transpose (v : Vec3 ℝ) (b c : ℝ) :
    (around v b c).transpose = around v (-b) c := by
  simp [around]

/-- Their product is one of them. -/
theorem around_mul_around (v : Vec3 ℝ) (b c b' c' : ℝ) :
    around v b c * around v b' c'
      = around v (b + b' - v.norm ^ 2 * (b * c' + c * b'))
        (c + c' + b * b' - v.norm ^ 2 * (c * c')) := by
  have hcube := skew_cube v
  have hcube' : skew v * skew v * skew v = -(v.norm * v.norm) • skew v := by rw [mul_assoc, hcube]
  have hfourth : skew v * skew v * (skew v * skew v) = -(v.norm * v.norm) • (skew v * skew v) := by
    rw [mul_assoc, hcube, mul_smul_comm]
  simp only [around, mul_add, add_mul, mul_one, one_mul, smul_mul, mul_smul_comm, hcube, hcube',
    hfourth, smul_smul]
  module

theorem around_comm (v : Vec3 ℝ) (b c b' c' : ℝ) :
    around v b c * around v b' c' = around v b' c' * around v b c := by
  rw [around_mul_around, around_mul_around]
  congr 1 <;> ring

theorem trace_around (v : Vec3 ℝ) (b c : ℝ) :
    (around v b c).trace = 3 - 2 * (c * v.dot v) := by
  change (around v b c).r1.x + (around v b c).r2.y + (around v b c).r3.z = _
  simp [around, skew_eq, Vec3.dot_eq, c1_eq, c2_eq, c3_eq]
  ring

theorem axial_around (v : Vec3 ℝ) (b c : ℝ) : Versor.axial (around v b c) = (2 * b) • v := by
  ext <;> simp [Versor.axial, around, skew_eq, Vec3.dot_eq, c1_eq, c2_eq, c3_eq] <;> ring

/-- Such a matrix moves with its vector and its coefficients. -/
theorem hasRate_around {b c : ℝ → ℝ} {b' c' : ℝ} (hb : HasDerivAt b b' t) (hc : HasDerivAt c c' t)
    (hf : Vec3.HasRate f v t) : HasRate (fun s => around (f s) (b s) (c s))
      (b' • skew (f t) + b t • skew v
        + (c' • (skew (f t) * skew (f t)) + c t • (skew v * skew (f t) + skew (f t) * skew v)))
      t :=
  (((HasRate.const 1 t).add (.smul hb (.skew hf))).add
    (.smul hc (.mul (.skew hf) (.skew hf)))).congr_rate (by rw [zero_add])

/-! ## The rotation of a vector -/

theorem turning_eq (v : Vec3 ℝ) :
    turning v = around v (Real.sin v.norm / v.norm) ((1 - Real.cos v.norm) / (v.norm * v.norm)) :=
  rfl

theorem turning_mul_transpose (hv : v ≠ 0) : turning v * (turning v).transpose = 1 := by
  have hpos := Vec3.norm_pos hv
  rw [turning_eq, around_transpose, around_mul_around, ← around_zero v]
  congr 1
  · ring
  · field_simp
    linear_combination -Real.sin_sq_add_cos_sq v.norm

theorem trace_turning (hv : v ≠ 0) : (turning v).trace = 1 + 2 * Real.cos v.norm := by
  have hpos := Vec3.norm_pos hv
  rw [turning_eq, trace_around, ← Vec3.norm_mul_self]
  field_simp
  ring

/-- The left tangent of the exponential: from the rate of a vector to the spin of
its rotation. -/
noncomputable def exponentialTangent (v : Vec3 ℝ) : Mat3 ℝ :=
  1 + ((1 - Real.cos v.norm) / v.norm ^ 2) • skew v
    + ((v.norm - Real.sin v.norm) / v.norm ^ 3) • (skew v * skew v)

theorem exponentialTangent_eq (v : Vec3 ℝ) :
    exponentialTangent v = around v ((1 - Real.cos v.norm) / v.norm ^ 2)
      ((v.norm - Real.sin v.norm) / v.norm ^ 3) := rfl

theorem hasDerivAt_sin_div_norm (hf : Vec3.HasRate f v t) (hpos : 0 < (f t).norm) :
    HasDerivAt (fun s => Real.sin (f s).norm / (f s).norm)
      ((Real.cos (f t).norm - Real.sin (f t).norm / (f t).norm)
        * ((f t).norm⁻¹ • f t).dot v / (f t).norm) t := by
  refine (hasDerivAt_ratio (hf.norm hpos).sin (hf.norm hpos) hpos.ne').congr_deriv ?_
  ring

theorem hasDerivAt_cos_div_norm (hf : Vec3.HasRate f v t) (hpos : 0 < (f t).norm) :
    HasDerivAt (fun s => (1 - Real.cos (f s).norm) / ((f s).norm * (f s).norm))
      ((Real.sin (f t).norm - 2 * (1 - Real.cos (f t).norm) / (f t).norm)
        * ((f t).norm⁻¹ • f t).dot v / ((f t).norm * (f t).norm)) t := by
  have hnorm := hf.norm hpos
  refine (hasDerivAt_ratio (hnorm.cos.const_sub 1) (hnorm.fun_mul hnorm)
    (by positivity)).congr_deriv ?_
  field_simp
  ring

/-- **The spin of an exponential** is the left tangent applied to the rate of the
vector. -/
theorem hasRate_turning (hf : Vec3.HasRate f v t) (hne : f t ≠ 0) :
    HasRate (fun s => turning (f s))
      (skew ((exponentialTangent (f t)).apply v) * turning (f t)) t := by
  have hpos := Vec3.norm_pos hne
  refine (hasRate_around (hasDerivAt_sin_div_norm hf hpos) (hasDerivAt_cos_div_norm hf hpos)
    hf).congr_rate (ext_apply fun u => ?_)
  rw [exponentialTangent_eq, turning_eq]
  simp only [mul_apply, around_apply, skew_apply, add_apply, smul_apply]
  have hunit : ((f t).norm⁻¹ • f t).dot ((f t).norm⁻¹ • f t) = 1 := Vec3.dot_divide_norm hpos
  have haxis : f t = (f t).norm • (f t).norm⁻¹ • f t := (Vec3.norm_smul_divide hpos).symm
  have htrig := Real.sin_sq_add_cos_sq (f t).norm
  generalize (f t).norm⁻¹ • f t = e at hunit haxis ⊢
  generalize (f t).norm = a at hpos haxis htrig ⊢
  rw [haxis]
  -- with the product of the rate split along the axis and across, the terms are independent
  have hv : v.cross u
      = ((e.cross v).dot u) • e - (e.dot u) • e.cross v + (e.dot v) • e.cross u := by
    have htriple := Vec3.cross_cross e e (v.cross u)
    rw [Vec3.cross_cross e v u, Vec3.cross_sub, Vec3.cross_smul, Vec3.cross_smul, hunit, one_smul,
      Vec3.dot_cross] at htriple
    rw [eq_sub_iff_add_eq, ← eq_sub_iff_add_eq'] at htriple
    rw [htriple]
    module
  simp only [Vec3.smul_cross, Vec3.cross_smul, Vec3.cross_add, Vec3.add_cross, Vec3.cross_sub,
    Vec3.cross_cross, Vec3.cross_cross_left, Vec3.cross_self, Vec3.sub_cross, Vec3.smul_dot,
    Vec3.add_dot, Vec3.sub_dot, Vec3.dot_comm v e, Vec3.cross_anticomm v e, hunit, hv,
    Vec3.dot_comm (e.cross v) e, Vec3.dot_cross_self_left]
  match_scalars
  on_goal 2 =>
    -- the coefficient of the axis
    field_simp
    linear_combination (e.dot v * e.dot u - v.dot u) * htrig
  all_goals
    field_simp
    ring

/-- **A vector has a rate where its rotation has one**, if it is continuous there
and the angle is regular. -/
theorem exists_rate (hf : ContinuousAt (fun s => Vec3.coordinates (f s)) t)
    (ha : Tangent.Regular (f t).norm) (hR : ∀ᶠ s in 𝓝 t, R s = turning (f s))
    (hm : HasRate R m t) : ∃ v, Vec3.HasRate f v t := by
  have hsin : Real.sin (f t).norm ≠ 0 := by
    rw [← mul_div_cancel₀ (f t).norm two_ne_zero, Real.sin_two_mul]
    exact mul_ne_zero (mul_ne_zero two_ne_zero ha.sin_half_pos.ne') ha.cos_half_ne_zero
  have hnorm := Vec3.continuousAt_norm hf
  have hne : ∀ᶠ s in 𝓝 t, f s ≠ 0 := by
    filter_upwards [hnorm.eventually_const_lt ha.pos] with s hs hzero
    rw [hzero, Vec3.norm_zero] at hs
    exact hs.false
  have hcos : HasDerivAt (fun s => Real.cos (f s).norm) (m.trace / 2) t := by
    refine (((Versor.hasDerivAt_trace hm).sub_const 1).div_const 2).congr_of_eventuallyEq ?_
    filter_upwards [hR, hne] with s hs hne
    rw [hs, trace_turning hne]
    ring
  have hangle := Trigonometry.hasDerivAt_of_cos hnorm hsin hcos
  have hvector : ∀ᶠ s in 𝓝 t,
      f s = ((f s).norm / (2 * Real.sin (f s).norm)) • Versor.axial (R s) := by
    filter_upwards [hR, hne, hangle.sin.continuousAt.eventually_ne hsin] with s hs hne hsin
    have hpos := Vec3.norm_pos hne
    rw [hs, turning_eq, axial_around, smul_smul]
    field_simp
    rw [one_smul]
  have hfactor := hangle.div (hangle.sin.const_mul 2) (mul_ne_zero two_ne_zero hsin)
  exact ⟨_, (Vec3.HasRate.smul hfactor (Versor.hasRate_axial hm)).congr_of_eventuallyEq hvector⟩

/-- A rotation that moves with a spin has the left tangent of its vector's rate for
it. -/
theorem exponentialTangent_apply_eq {w : Vec3 ℝ} (hne : f t ≠ 0) (hf : Vec3.HasRate f v t)
    (hR : ∀ᶠ s in 𝓝 t, R s = turning (f s)) (hw : HasRate R (skew w * R t) t) :
    (exponentialTangent (f t)).apply v = w := by
  have hrate := (hasRate_turning hf hne).congr_of_eventuallyEq hR
  have heq := congrArg (· * (turning (f t)).transpose) (hrate.unique hw)
  simpa only [hR.self_of_nhds, mul_assoc, turning_mul_transpose hne, mul_one, skew_inj] using heq

/-- A rotation that is the exponential of a moving vector is its turning, as long
as the vector does not vanish. -/
theorem eventually_eq_turning (hf : ContinuousAt (fun s => (f s).norm) t) (hne : f t ≠ 0)
    (hR : ∀ᶠ s in 𝓝 t, (R s).entries = NormedSpace.exp (skew (f s)).entries) :
    ∀ᶠ s in 𝓝 t, R s = turning (f s) := by
  filter_upwards [hR, hf.eventually_const_lt (Vec3.norm_pos hne)] with s hs hpos
  refine entries_injective (hs.trans (exp_skew fun hzero => ?_))
  rw [hzero, Vec3.norm_zero] at hpos
  exact hpos.false

end Mat3

namespace Tangent

open Mat3 (exponentialTangent turning)

variable [SeriesAngle] {tol : Tolerances ℝ} {theta : Vec3 ℝ}

/-! ## From spins back to vectors -/

theorem spinToVectorWith_eq_around (eta : ℝ) (theta : Vec3 ℝ) :
    spinToVectorWith eta theta = Mat3.around theta (-(1 / 2)) eta :=
  Mat3.ext_apply fun v => by
    rw [spinToVectorWith_apply, Mat3.around_apply]
    module

/-- In closed form it undoes the left tangent. -/
theorem spinToVectorWith_mul_exponentialTangent (h : Regular theta.norm) :
    spinToVectorWith (closed theta.norm).eta theta * exponentialTangent theta = 1 := by
  have ha := h.pos
  have hs := h.sin_half_pos
  have hsin : Real.sin theta.norm
      = 2 * Real.sin (theta.norm / 2) * Real.cos (theta.norm / 2) := by
    rw [← Real.sin_two_mul, mul_div_cancel₀ _ two_ne_zero]
  have hcos : 1 - Real.cos theta.norm = 2 * Real.sin (theta.norm / 2) ^ 2 := by
    rw [Real.sin_sq_eq_half_sub, mul_div_cancel₀ _ two_ne_zero]
    ring
  have hsq : Real.cos (theta.norm / 2) ^ 2 = 1 - Real.sin (theta.norm / 2) ^ 2 := Real.cos_sq' _
  rw [spinToVectorWith_eq_around, Mat3.exponentialTangent_eq, Mat3.around_mul_around,
    ← Mat3.around_zero theta, h.closed_eta, hcos, hsin]
  generalize theta.norm = a at *
  congr 1
  · field_simp
    ring
  · field_simp
    linear_combination (-2 * a * Real.sin (a / 2)) * hsq

theorem spinToVector_mul_exponentialTangent (hle : tol.smallAngle ≤ theta.norm)
    (h : Regular theta.norm) : spinToVector tol theta * exponentialTangent theta = 1 := by
  rw [spinToVector_eq, coefficients_of_le hle, spinToVectorWith_mul_exponentialTangent h]

theorem exponentialTangent_mul_spinToVector (hle : tol.smallAngle ≤ theta.norm)
    (h : Regular theta.norm) : exponentialTangent theta * spinToVector tol theta = 1 := by
  rw [← spinToVector_mul_exponentialTangent hle h, spinToVector_eq, spinToVectorWith_eq_around,
    Mat3.exponentialTangent_eq, Mat3.around_comm]

/-- A vector is the change that the spin about itself makes. -/
theorem spinToVector_apply_self (tol : Tolerances ℝ) (theta : Vec3 ℝ) :
    (spinToVector tol theta).apply theta = theta := by
  rw [spinToVector_eq, spinToVectorWith_apply]
  simp

/-- The rate of a continuous vector whose rotation moves with a spin. -/
theorem hasRate_of_spin {f : ℝ → Vec3 ℝ} {R : ℝ → Mat3 ℝ} {w : Vec3 ℝ} {t : ℝ}
    (hle : tol.smallAngle ≤ (f t).norm) (h : Regular (f t).norm)
    (hf : ContinuousAt (fun s => Vec3.coordinates (f s)) t)
    (hR : ∀ᶠ s in 𝓝 t, R s = turning (f s)) (hw : Mat3.HasRate R (Mat3.skew w * R t) t) :
    Vec3.HasRate f ((spinToVector tol (f t)).apply w) t := by
  obtain ⟨v, hv⟩ := Mat3.exists_rate hf h hR hw
  refine hv.congr_rate ?_
  rw [← Mat3.exponentialTangent_apply_eq h.ne_zero hv hR hw, ← Mat3.mul_apply,
    spinToVector_mul_exponentialTangent hle h, Mat3.one_apply]

theorem norm_two_four_four : (⟨2, 4, 4⟩ : Vec3 ℝ).norm = 6 := by
  rw [Vec3.norm_eq, Vec3.dot_eq, show (2 * 2 + 4 * 4 + 4 * 4 : ℝ) = 6 * 6 by norm_num]
  exact Real.sqrt_mul_self (by norm_num)

/-- **The map from spins to changes of the rotation vector is the inverse of the
left tangent of the exponential**, from the small angle to a full turn and but
for half a turn. So a vector whose exponential moves with a spin moves by the
map applied to the spin, and the spin of a moving vector is the left tangent
applied to its rate. -/
theorem spinToVector_inverse (hsmall : 0 < tol.smallAngle) (hle : tol.smallAngle ≤ theta.norm)
    (hlt : theta.norm < 2 * Real.pi) (hne : theta.norm ≠ Real.pi) :
    spinToVector tol theta * exponentialTangent theta = 1
      ∧ exponentialTangent theta * spinToVector tol theta = 1
      ∧ (spinToVector tol theta).apply theta = theta
      ∧ ∀ (f : ℝ → Vec3 ℝ) (R : ℝ → Mat3 ℝ) (t : ℝ), f t = theta →
        (∀ᶠ s in 𝓝 t, (R s).entries = NormedSpace.exp (Mat3.skew (f s)).entries) →
          (∀ v, Vec3.HasRate f v t →
            Mat3.HasRate R (Mat3.skew ((exponentialTangent theta).apply v) * R t) t)
          ∧ ∀ w, ContinuousAt (fun s => Vec3.coordinates (f s)) t →
            Mat3.HasRate R (Mat3.skew w * R t) t →
              Vec3.HasRate f ((spinToVector tol theta).apply w) t := by
  have hregular : Regular theta.norm := ⟨hsmall.trans_le hle, hlt, hne⟩
  refine ⟨spinToVector_mul_exponentialTangent hle hregular,
    exponentialTangent_mul_spinToVector hle hregular, spinToVector_apply_self tol theta, ?_⟩
  rintro f R t rfl hR
  have hzero := hregular.ne_zero
  constructor
  · intro v hv
    have hturning := Mat3.eventually_eq_turning hv.continuousAt_norm hzero hR
    rw [hturning.self_of_nhds]
    exact (Mat3.hasRate_turning hv hzero).congr_of_eventuallyEq hturning
  · intro w hf hw
    exact hasRate_of_spin hle hregular hf
      (Mat3.eventually_eq_turning (Vec3.continuousAt_norm hf) hzero hR) hw

omit [SeriesAngle] in
/-- Beyond half a turn, along the multiples of a vector of length six. -/
theorem spinToVector_inverse_beyond :
    letI : SeriesAngle := .exact
    (⟨2, 4, 4⟩ : Vec3 ℝ).norm = 6
      ∧ spinToVector .standard (⟨2, 4, 4⟩ : Vec3 ℝ) * exponentialTangent ⟨2, 4, 4⟩ = 1
      ∧ Vec3.HasRate (fun s => s • (⟨2, 4, 4⟩ : Vec3 ℝ))
        ((spinToVector .standard (⟨2, 4, 4⟩ : Vec3 ℝ)).apply ⟨2, 4, 4⟩) 1 := by
  let _ : SeriesAngle := .exact
  have hnorm := norm_two_four_four
  generalize (⟨2, 4, 4⟩ : Vec3 ℝ) = theta at hnorm ⊢
  have hsmall : (Tolerances.standard : Tolerances ℝ).smallAngle = 1 / 20 := rfl
  have hle : (Tolerances.standard : Tolerances ℝ).smallAngle ≤ theta.norm := by
    rw [hsmall, hnorm]
    norm_num
  obtain ⟨hinverse, -, -, hspin⟩ := spinToVector_inverse (by rw [hsmall]; norm_num) hle
    (by rw [hnorm]; linarith [Real.pi_gt_three]) (by rw [hnorm]; linarith [Real.pi_lt_four])
  have hrate : Vec3.HasRate (fun s => s • theta) theta 1 := by
    simpa using Vec3.HasRate.smul_const (hasDerivAt_id (1 : ℝ)) theta
  have hexp : ∀ᶠ s in 𝓝 (1 : ℝ),
      (turning (s • theta)).entries = NormedSpace.exp (Mat3.skew (s • theta)).entries := by
    filter_upwards [eventually_gt_nhds one_pos] with s hs
    have hne : theta ≠ 0 := fun hzero => by simp [hzero] at hnorm
    exact (Mat3.exp_skew (smul_ne_zero hs.ne' hne)).symm
  obtain ⟨hforward, hback⟩ := hspin (fun s => s • theta) (fun s => turning (s • theta)) 1
    (one_smul ℝ theta) hexp
  have hfixed : (exponentialTangent theta).apply theta = theta := by
    simp [Mat3.exponentialTangent_eq, Mat3.around_apply]
  have hmoves := hforward theta hrate
  rw [hfixed] at hmoves
  exact ⟨hnorm, hinverse, hback theta hrate.continuousAt hmoves⟩

end Tangent

end Corotation
