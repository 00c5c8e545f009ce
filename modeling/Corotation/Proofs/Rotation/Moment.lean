import Corotation.Proofs.Rotation.Spin
import Corotation.Proofs.Space.Derivative
/-!
# The stiffness of a moment

A moment that is conjugate to the rotation vector is pulled back to spins by
the transposed tangent, and this depends on the vector. Where the coefficients
are smooth the pulled-back moment has a derivative, and the stiffness of the
moment is that derivative along the changes that spins make
(`Tangent.momentStiffness_eq_derivative`). Zero belongs to these places, since
the series is a polynomial in the square of the length.

What is not symmetric in the stiffness is the vector product with the pulled-back
moment. This rests on the relation between the two coefficients alone.
-/

open Topology

namespace Corotation

namespace Tangent

variable [SeriesAngle] {tol : Tolerances ℝ} {theta : Vec3 ℝ}

/-- Where the coefficients are smooth functions of the rotation vector: at zero,
and beyond the small angle at the regular angles. -/
def SmoothAt (tol : Tolerances ℝ) (theta : Vec3 ℝ) : Prop :=
  theta = 0 ∨ (tol.smallAngle < theta.norm ∧ Regular theta.norm)

/-- Beyond the small angle the second coefficient is the derivative of the first
over the angle. -/
theorem hasDerivAt_coefficients_eta {a : ℝ} (hlt : tol.smallAngle < a) (h : Regular a) :
    HasDerivAt (fun b => (coefficients tol b).eta) (a * (coefficients tol a).mu) a := by
  rw [coefficients_of_le hlt.le]
  refine (hasDerivAt_closed_eta h).congr_of_eventuallyEq ?_
  filter_upwards [eventually_gt_nhds hlt] with b hb
  rw [coefficients_of_le hb.le]

/-- So the gradient of the first is the vector times the second. -/
theorem hasGradient_eta (hsmall : 0 < tol.smallAngle) (h : SmoothAt tol theta) :
    Vec3.HasGradient (fun x => (coefficients tol x.norm).eta)
      ((coefficients tol theta.norm).mu • theta) theta := by
  rcases h with rfl | ⟨hlt, hregular⟩
  · -- the series is a polynomial in the square of the length, which is at rest at zero
    have hpoly : HasDerivAt (fun r : ℝ => 1 / 12 + r / 720 + r * r / 30240) (1 / 720)
        ((0 : Vec3 ℝ).dot 0) := by
      have hid := hasDerivAt_id ((0 : Vec3 ℝ).dot 0)
      refine (((hid.div_const 720).const_add (1 / 12)).add
        ((hid.mul hid).div_const 30240)).congr_deriv ?_
      simp
    have hnear : ∀ᶠ p in 𝓝 (Vec3.coordinates (0 : Vec3 ℝ)),
        (Vec3.coordinates.symm p).norm < tol.smallAngle := by
      refine Vec3.continuous_norm.continuousAt.eventually_lt_const ?_
      change (0 : Vec3 ℝ).norm < tol.smallAngle
      rwa [Vec3.norm_zero]
    refine (((Vec3.hasGradient_dot_self 0).comp hpoly).congr_of_eventually
      (hnear.mono fun p hp => ?_)).congr_gradient ?_
    · rw [coefficients_of_lt hp, series_eta, Vec3.norm_mul_self]
    · simp
  · refine ((Vec3.hasGradient_norm hregular.ne_zero).comp
      (hasDerivAt_coefficients_eta hlt hregular)).congr_gradient ?_
    have hpos := hregular.pos
    rw [smul_smul]
    congr 1
    field_simp

/-- The derivative of the pulled-back moment by the rotation vector. -/
noncomputable def momentTangent (k : Coefficients ℝ) (theta m : Vec3 ℝ) : Mat3 ℝ :=
  k.eta • (Mat3.outer theta m - (Mat3.outer m theta + Mat3.outer m theta)
      + theta.dot m • (1 : Mat3 ℝ))
    + k.mu • Mat3.outer (theta.cross (theta.cross m)) theta - (Mat3.skew m).scale Scalar.half

theorem momentStiffness_eq (tol : Tolerances ℝ) (theta m : Vec3 ℝ) :
    momentStiffness tol theta m
      = momentTangent (coefficients tol theta.norm) theta m * spinToVector tol theta := by
  unfold momentStiffness momentTangent
  simp [two_smul]

/-- **The pulled-back moment has a derivative** wherever the coefficients are
smooth. -/
theorem hasDerivative_pulledMoment (hsmall : 0 < tol.smallAngle) (h : SmoothAt tol theta)
    (m : Vec3 ℝ) :
    Vec3.HasDerivative (fun x => (spinToVector tol x).transpose.apply m)
      (momentTangent (coefficients tol theta.norm) theta m) theta := by
  have hcross := (Vec3.HasDerivative.id theta).cross (.const m theta)
  have htwice := (Vec3.HasDerivative.id theta).cross hcross
  simp only [spinToVector_eq, spinToVectorWith_transpose_apply]
  refine (((Vec3.HasDerivative.const m theta).add (hcross.const_smul (1 / 2))).add
    (.smul (hasGradient_eta hsmall h) htwice)).congr_derivative (Mat3.ext_apply fun u => ?_)
  simp only [momentTangent, Mat3.scale_eq_smul, Scalar.half_real, Mat3.add_apply, Mat3.sub_apply,
    Mat3.smul_apply, Mat3.zero_apply, Mat3.mul_apply, Mat3.one_apply, Mat3.outer_apply,
    Mat3.skew_apply, Vec3.cross_sub, Vec3.cross_zero, Vec3.cross_cross, Vec3.cross_cross_left,
    Vec3.smul_dot]
  module

/-- What is not symmetric in the stiffness. -/
theorem momentStiffness_sub_transpose (h : SmoothAt tol theta) (m : Vec3 ℝ) :
    momentStiffness tol theta m - (momentStiffness tol theta m).transpose
      = -Mat3.skew ((spinToVector tol theta).transpose.apply m) := by
  refine Mat3.ext_apply fun v => Vec3.ext_dot fun u => ?_
  have hasymmetry := momentStiffness_asymmetry_of_regular m
    (h.imp id fun ⟨hlt, hregular⟩ => ⟨hlt.le, hregular⟩) u v
  rw [Mat3.dot_apply _ v, Vec3.dot_comm _ u, Vec3.dot_cross] at hasymmetry
  rw [Mat3.sub_apply, Mat3.neg_apply, Mat3.skew_apply, Vec3.dot_sub, Vec3.dot_neg, hasymmetry,
    Vec3.dot_cross, Vec3.cross_anticomm u, Vec3.neg_dot, neg_neg]

/-- **The stiffness of a moment is the derivative of the pulled-back moment**, taken
along the changes that spins make: at zero, and beyond the small angle up to a
full turn and but for half a turn. On the same angles the second coefficient is
the derivative of the first over the angle, and what is not symmetric in the
stiffness is the vector product with the pulled-back moment. -/
theorem momentStiffness_eq_derivative (hsmall : 0 < tol.smallAngle)
    (h : theta = 0 ∨ tol.smallAngle < theta.norm ∧ theta.norm < 2 * Real.pi
      ∧ theta.norm ≠ Real.pi) (m : Vec3 ℝ) :
    (∃ J, Vec3.HasDerivative (fun x => (spinToVector tol x).transpose.apply m) J theta
        ∧ momentStiffness tol theta m = J * spinToVector tol theta)
      ∧ (∀ a, tol.smallAngle < a → a < 2 * Real.pi → a ≠ Real.pi →
        ∃ eta', HasDerivAt (fun b => (coefficients tol b).eta) eta' a
          ∧ (coefficients tol a).mu = eta' / a)
      ∧ momentStiffness tol theta m - (momentStiffness tol theta m).transpose
        = -Mat3.skew ((spinToVector tol theta).transpose.apply m) := by
  have hsmooth : SmoothAt tol theta := h.imp id fun ⟨hlt, htwo, hne⟩ =>
    ⟨hlt, hsmall.trans hlt, htwo, hne⟩
  refine ⟨⟨_, hasDerivative_pulledMoment hsmall hsmooth m, momentStiffness_eq tol theta m⟩,
    fun a hlt htwo hne => ?_, momentStiffness_sub_transpose hsmooth m⟩
  have hpos : 0 < a := hsmall.trans hlt
  refine ⟨_, hasDerivAt_coefficients_eta hlt ⟨hpos, htwo, hne⟩, ?_⟩
  rw [mul_div_cancel_left₀ _ hpos.ne']

omit [SeriesAngle] in
/-- A moment across a vector of length six, beyond half a turn. -/
theorem momentStiffness_eq_derivative_beyond :
    letI : SeriesAngle := .exact
    (⟨2, 4, 4⟩ : Vec3 ℝ).norm = 6
      ∧ (∃ J, Vec3.HasDerivative
          (fun x => (spinToVector .standard x).transpose.apply ⟨1, 0, 0⟩) J ⟨2, 4, 4⟩
        ∧ momentStiffness .standard ⟨2, 4, 4⟩ ⟨1, 0, 0⟩
          = J * spinToVector .standard (⟨2, 4, 4⟩ : Vec3 ℝ)) := by
  let _ : SeriesAngle := .exact
  have hnorm := norm_two_four_four
  have hsmall : (Tolerances.standard : Tolerances ℝ).smallAngle = 1 / 20 := rfl
  refine ⟨hnorm, (momentStiffness_eq_derivative (by rw [hsmall]; norm_num) (.inr ?_) _).1⟩
  rw [hnorm, hsmall]
  exact ⟨by norm_num, by linarith [Real.pi_gt_three], by linarith [Real.pi_lt_four]⟩

end Tangent

end Corotation
