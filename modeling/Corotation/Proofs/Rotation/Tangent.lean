import Corotation.Proofs.Rotation.Logarithm
import Corotation.Rotation.Tangent
/-!
# The tangent of the rotation vector

A rotation that moves with a spin `w` moves its rotation vector `θ` by
`spinToVector θ` applied to `w`, at angle zero and at every angle between the
small one and half a turn (`hasRate_logarithm`). Between the two lies the
reason for a coefficient: at an angle `a` above the series,
`η a² = 1 - (a / 2) cot (a / 2)`.

The same coefficient moves with the vector, and its derivative over the angle
is `μ`. So a moment pulled back to spins changes by `momentStiffness` with the
spin and by the transposed tangent with itself (`hasRate_pulledMoment`).
-/

open Topology

namespace Corotation

namespace Tolerances

variable [SeriesAngle] (tol : Tolerances ℝ) (theta : Vec3 ℝ)

/-- The rotation vectors at which the tangent is exact: zero, and from the
small angle up to half a turn. -/
def Covers : Prop := theta = 0 ∨ (tol.smallAngle ≤ theta.norm ∧ theta.norm < Real.pi)

/-- The rotation vectors around which the tangent is exact too: zero, and
beyond the small angle up to half a turn. -/
def CoversAround : Prop := theta = 0 ∨ (tol.smallAngle < theta.norm ∧ theta.norm < Real.pi)

variable {tol theta}

/-- Tolerances under which the theory holds: no direction is parallel to
another by a negative measure, and the series of the tangent reach beyond those
of the rotations. -/
structure Admissible (tol : Tolerances ℝ) : Prop where
  parallel_nonneg : 0 ≤ tol.parallel
  series_nonneg : 0 ≤ SeriesAngle.angle
  series_lt : SeriesAngle.angle < tol.smallAngle

/-- **The standard tolerances are admissible**, with exact rotations and with
series up to any angle below a twentieth. -/
theorem standard_admissible (h0 : 0 ≤ SeriesAngle.angle) (h : SeriesAngle.angle < 1 / 20) :
    (standard : Tolerances ℝ).Admissible where
  parallel_nonneg := by
    change (0 : ℝ) ≤ 1 / 1000000000000
    positivity
  series_nonneg := h0
  series_lt := h

omit [SeriesAngle] in
theorem standard_admissible_exact :
    letI : SeriesAngle := .exact
    (standard : Tolerances ℝ).Admissible := by
  let _ : SeriesAngle := .exact
  refine standard_admissible le_rfl ?_
  change (0 : ℝ) < 1 / 20
  norm_num

/-- Under the standard tolerances a direction is not parallel to one that it
meets at the angle one. -/
theorem standard_parallel_lt_cos : (standard : Tolerances ℝ).parallel < Real.cos 1 := by
  have hcos : 1 - 1 ^ 2 / 2 ≤ Real.cos 1 := Real.one_sub_sq_div_two_le_cos
  change (1 : ℝ) / 1000000000000 < Real.cos 1
  linarith

theorem CoversAround.covers (h : tol.CoversAround theta) : tol.Covers theta :=
  h.imp id fun h => ⟨h.1.le, h.2⟩

end Tolerances

namespace Tangent

variable [SeriesAngle] (tol : Tolerances ℝ) (theta m v : Vec3 ℝ) (eta : ℝ)

/-! ## The maps by their action -/

theorem spinToVectorWith_apply :
    (spinToVectorWith eta theta).apply v
      = v - (1 / 2 : ℝ) • theta.cross v + eta • theta.cross (theta.cross v) := by
  unfold spinToVectorWith
  simp

theorem spinToVectorWith_transpose_apply :
    (spinToVectorWith eta theta).transpose.apply v
      = v + (1 / 2 : ℝ) • theta.cross v + eta • theta.cross (theta.cross v) := by
  unfold spinToVectorWith
  simp

theorem spinToVector_eq :
    spinToVector tol theta = spinToVectorWith (coefficients tol theta.norm).eta theta := rfl

/-- At angle zero a spin is a change of the rotation vector. -/
theorem spinToVector_zero : spinToVector tol (0 : Vec3 ℝ) = 1 :=
  Mat3.ext_apply fun v => by
    rw [spinToVector_eq, spinToVectorWith_apply]
    simp

theorem momentStiffness_apply :
    (momentStiffness tol theta m).apply v =
      let u := (spinToVector tol theta).apply v
      (coefficients tol theta.norm).eta
          • ((m.dot u) • theta - (2 * theta.dot u) • m + (theta.dot m) • u)
        + ((coefficients tol theta.norm).mu * theta.dot u) • theta.cross (theta.cross m)
        - (1 / 2 : ℝ) • m.cross u := by
  unfold momentStiffness
  simp [smul_smul]

/-! ## The coefficients -/

variable {tol theta}

theorem coefficients_of_lt {a : ℝ} (h : a < tol.smallAngle) : coefficients tol a = series a :=
  if_pos (Scalar.lt_real.mpr h)

theorem coefficients_of_le {a : ℝ} (h : tol.smallAngle ≤ a) : coefficients tol a = closed a :=
  if_neg fun h' => not_lt.mpr h (Scalar.lt_real.mp h')

theorem series_eta (a : ℝ) :
    (series a).eta = 1 / 12 + a * a / 720 + a * a * (a * a) / 30240 := rfl

theorem closed_eta (a : ℝ) :
    (closed a).eta = (2 * Real.sin a - a * (1 + Real.cos a)) / (2 * a * a * Real.sin a) := rfl

theorem closed_mu (a : ℝ) :
    (closed a).mu = (a * (a + Real.sin a) - 8 * (Real.sin (a / 2) * Real.sin (a / 2)))
      / (4 * (a * a * (a * a)) * (Real.sin (a / 2) * Real.sin (a / 2))) := rfl

/-- The closed form by the half angle. -/
theorem closed_eta_half {a : ℝ} (ha : a ≠ 0) (hs : Real.sin (a / 2) ≠ 0)
    (hc : Real.cos (a / 2) ≠ 0) :
    (closed a).eta = (a ^ 2)⁻¹ - Real.cos (a / 2) / (2 * (a * Real.sin (a / 2))) := by
  obtain ⟨x, rfl⟩ : ∃ x, a = 2 * x := ⟨a / 2, by ring⟩
  rw [mul_div_cancel_left₀ x two_ne_zero] at hs hc ⊢
  rw [closed_eta, Real.sin_two_mul, Real.cos_two_mul]
  have hx : x ≠ 0 := fun h => ha (by rw [h, mul_zero])
  field_simp
  ring

/-- The angles at which the closed form has a value: up to a full turn, but for
half a turn. -/
structure Regular (a : ℝ) : Prop where
  pos : 0 < a
  lt : a < 2 * Real.pi
  ne : a ≠ Real.pi

omit [SeriesAngle] in
theorem Regular.of_lt_pi {a : ℝ} (h0 : 0 < a) (hpi : a < Real.pi) : Regular a :=
  ⟨h0, by linarith, hpi.ne⟩

theorem Regular.ne_zero (h : Regular theta.norm) : theta ≠ 0 := fun hzero => by
  have := h.pos
  rw [hzero, Vec3.norm_zero] at this
  exact this.false

omit [SeriesAngle] in
theorem Regular.sin_half_pos {a : ℝ} (h : Regular a) : 0 < Real.sin (a / 2) :=
  Real.sin_pos_of_pos_of_lt_pi (by linarith [h.pos]) (by linarith [h.lt])

omit [SeriesAngle] in
theorem Regular.cos_half_ne_zero {a : ℝ} (h : Regular a) : Real.cos (a / 2) ≠ 0 := by
  intro hc
  have hpi : Real.cos (a / 2) = Real.cos (Real.pi / 2) := by rw [hc, Real.cos_pi_div_two]
  have := Real.injOn_cos ⟨by linarith [h.pos], by linarith [h.lt]⟩
    ⟨by linarith [Real.pi_pos], by linarith [Real.pi_pos]⟩ hpi
  exact h.ne (by linarith)

omit [SeriesAngle] in
/-- So does every angle nearby. -/
theorem Regular.eventually {a : ℝ} (h : Regular a) : ∀ᶠ b in 𝓝 a, Regular b := by
  filter_upwards [eventually_gt_nhds h.pos, eventually_lt_nhds h.lt, eventually_ne_nhds h.ne]
    with b h0 hlt hne
  exact ⟨h0, hlt, hne⟩

theorem Regular.closed_eta {a : ℝ} (h : Regular a) :
    (closed a).eta = (a ^ 2)⁻¹ - Real.cos (a / 2) / (2 * (a * Real.sin (a / 2))) :=
  closed_eta_half h.pos.ne' h.sin_half_pos.ne' h.cos_half_ne_zero

/-- **The second coefficient is the derivative of the first over the angle.** -/
theorem hasDerivAt_closed_eta {a : ℝ} (h : Regular a) :
    HasDerivAt (fun b => (closed b).eta) (a * (closed a).mu) a := by
  have h0 := h.pos
  have hs := h.sin_half_pos
  have hhalf : HasDerivAt (fun b : ℝ => b / 2) (1 / 2) a := (hasDerivAt_id a).div_const 2
  have hden : HasDerivAt (fun b => 2 * (b * Real.sin (b / 2)))
      (2 * (1 * Real.sin (a / 2) + a * (Real.cos (a / 2) * (1 / 2)))) a :=
    ((hasDerivAt_id a).mul hhalf.sin).const_mul 2
  have hderiv : HasDerivAt (fun b => (b ^ 2)⁻¹ - Real.cos (b / 2) / (2 * (b * Real.sin (b / 2))))
      (a * (closed a).mu) a := by
    refine (((hasDerivAt_pow 2 a).inv (by positivity)).sub
      (hhalf.cos.div hden (by positivity))).congr_deriv ?_
    have hsq : Real.cos (a / 2) ^ 2 = 1 - Real.sin (a / 2) ^ 2 := Real.cos_sq' _
    have hsin : Real.sin a = 2 * Real.sin (a / 2) * Real.cos (a / 2) := by
      rw [← Real.sin_two_mul, mul_div_cancel₀ a two_ne_zero]
    rw [closed_mu, hsin]
    push_cast
    field_simp
    linear_combination (4 * a ^ 2) * hsq
  exact hderiv.congr_of_eventuallyEq (h.eventually.mono fun b hb => hb.closed_eta)

/-- The relation between the two coefficients, under which the map from spins to
changes of the rotation vector is integrable. -/
theorem closed_relation {a : ℝ} (h : Regular a) :
    3 * (closed a).eta + (closed a).mu * (a * a) = 1 / 4 + (closed a).eta ^ 2 * (a * a) := by
  have h0 := h.pos
  have hs := h.sin_half_pos
  have hsq : Real.cos (a / 2) ^ 2 = 1 - Real.sin (a / 2) ^ 2 := Real.cos_sq' _
  have hsin : Real.sin a = 2 * Real.sin (a / 2) * Real.cos (a / 2) := by
    rw [← Real.sin_two_mul, mul_div_cancel₀ a two_ne_zero]
  rw [h.closed_eta, closed_mu, hsin]
  field_simp
  linear_combination (-4 * a ^ 2) * hsq

/-- The relation at a rotation vector whose coefficients are in closed form. -/
theorem coefficients_relation (hle : tol.smallAngle ≤ theta.norm) (h : Regular theta.norm) :
    3 * (coefficients tol theta.norm).eta + (coefficients tol theta.norm).mu * theta.dot theta
      = 1 / 4 + (coefficients tol theta.norm).eta ^ 2 * theta.dot theta := by
  rw [coefficients_of_le hle, ← Vec3.norm_mul_self]
  exact closed_relation h

/-- **The first coefficient moves with the rotation vector** by the second. -/
theorem hasDerivAt_eta (hsmall : 0 < tol.smallAngle) {f : ℝ → Vec3 ℝ} {f' : Vec3 ℝ} {t : ℝ}
    (hf : Vec3.HasRate f f' t) (htheta : tol.CoversAround (f t)) :
    HasDerivAt (fun s => (coefficients tol (f s).norm).eta)
      ((coefficients tol (f t).norm).mu * (f t).dot f') t := by
  rcases htheta with hzero | ⟨hlt, hpi⟩
  · -- the series is a polynomial in the square of the length, which is at rest at zero
    have hsq : HasDerivAt (fun s => (f s).norm * (f s).norm) 0 t := by
      simp only [Vec3.norm_mul_self]
      refine (hf.dot hf).congr_deriv ?_
      rw [hzero, Vec3.dot_zero, Vec3.zero_dot, add_zero]
    have hnear : ∀ᶠ s in 𝓝 t, (f s).norm < tol.smallAngle := by
      refine hf.continuousAt_norm.eventually_lt_const ?_
      change (f t).norm < tol.smallAngle
      rwa [hzero, Vec3.norm_zero]
    refine ((((hsq.div_const 720).const_add (1 / 12)).add
      ((hsq.mul hsq).div_const 30240)).congr_of_eventuallyEq
        (hnear.mono fun s hs => ?_)).congr_deriv ?_
    · rw [coefficients_of_lt hs, series_eta]
      rfl
    · rw [hzero, Vec3.zero_dot]
      ring
  · have hpos : 0 < (f t).norm := hsmall.trans hlt
    have hnear : ∀ᶠ s in 𝓝 t, tol.smallAngle < (f s).norm :=
      hf.continuousAt_norm.eventually_const_lt hlt
    have hclosed := (hasDerivAt_closed_eta (.of_lt_pi hpos hpi)).comp t (hf.norm hpos)
    refine (hclosed.congr_of_eventuallyEq (hnear.mono fun s hs => ?_)).congr_deriv ?_
    · exact congrArg Coefficients.eta (coefficients_of_le hs.le)
    · rw [coefficients_of_le hlt.le, Vec3.smul_dot]
      field_simp

/-- **A moment pulled back to spins** changes by its stiffness with the spin
and by the transposed tangent with itself. -/
theorem hasRate_pulledMoment (hsmall : 0 < tol.smallAngle) {f p : ℝ → Vec3 ℝ} {u p' : Vec3 ℝ}
    {t : ℝ} (hf : Vec3.HasRate f ((spinToVector tol (f t)).apply u) t)
    (hp : Vec3.HasRate p p' t) (htheta : tol.CoversAround (f t)) :
    Vec3.HasRate (fun s => (spinToVector tol (f s)).transpose.apply (p s))
      ((momentStiffness tol (f t) (p t)).apply u + (spinToVector tol (f t)).transpose.apply p')
      t := by
  have heta := hasDerivAt_eta hsmall hf htheta
  have hcross := hf.cross hp
  simp only [spinToVector_eq, spinToVectorWith_transpose_apply]
  refine ((hp.add (hcross.const_smul (1 / 2))).add
    (Vec3.HasRate.smul heta (hf.cross hcross))).congr_rate ?_
  rw [momentStiffness_apply]
  generalize (spinToVector tol (f t)).apply u = w
  generalize coefficients tol (f t).norm = k
  rw [Vec3.cross_anticomm w (p t)]
  simp only [Vec3.cross_cross, Vec3.cross_add, Vec3.cross_neg, Vec3.dot_comm w]
  module

/-- **The stiffness of a moment is not symmetric**: what is left of a pair of
spins is the moment pulled back to spins, with the product of the two. The
coefficients cancel from it by their relation. -/
theorem momentStiffness_asymmetry_of_regular
    (h : theta = 0 ∨ (tol.smallAngle ≤ theta.norm ∧ Regular theta.norm)) (u v : Vec3 ℝ) :
    u.dot ((momentStiffness tol theta m).apply v) - v.dot ((momentStiffness tol theta m).apply u)
      = ((spinToVector tol theta).transpose.apply m).dot (u.cross v) := by
  simp only [momentStiffness_apply, spinToVector_eq, spinToVectorWith_apply,
    spinToVectorWith_transpose_apply]
  rcases h with hzero | ⟨hle, hregular⟩
  · -- at zero only the vector products are left, which are one triple product
    subst hzero
    simp [Vec3.dot_eq]
    ring
  have hrel := coefficients_relation hle hregular
  generalize (coefficients tol theta.norm).eta = e at hrel ⊢
  generalize (coefficients tol theta.norm).mu = k at hrel ⊢
  simp only [Vec3.dot_eq, Vec3.add_x, Vec3.add_y, Vec3.add_z, Vec3.sub_x, Vec3.sub_y, Vec3.sub_z,
    Vec3.smul_x, Vec3.smul_y, Vec3.smul_z, Vec3.cross_x, Vec3.cross_y, Vec3.cross_z] at hrel ⊢
  linear_combination (-((theta.x * v.x + theta.y * v.y + theta.z * v.z)
      * (u.x * m.x + u.y * m.y + u.z * m.z)
    - (theta.x * u.x + theta.y * u.y + theta.z * u.z)
      * (v.x * m.x + v.y * m.y + v.z * m.z))) * hrel

/-- Below half a turn in particular. -/
theorem momentStiffness_asymmetry (h : tol.Covers theta) (u v : Vec3 ℝ) :
    u.dot ((momentStiffness tol theta m).apply v) - v.dot ((momentStiffness tol theta m).apply u)
      = ((spinToVector tol theta).transpose.apply m).dot (u.cross v) := by
  refine momentStiffness_asymmetry_of_regular m (or_iff_not_imp_left.mpr fun hne => ?_) u v
  obtain ⟨hle, hpi⟩ := h.resolve_left hne
  exact ⟨hle, .of_lt_pi (Vec3.norm_pos hne) hpi⟩

/-! ## The rate of the rotation vector -/

end Tangent

namespace Versor

variable [SeriesAngle] {tol : Tolerances ℝ} {R : ℝ → Mat3 ℝ} {u : Vec3 ℝ} {t : ℝ}

/-- Near angle zero the factor from the vector part to the rotation vector is
two, whichever way it is taken. -/
theorem abs_inverseHalfSine_sub_le (h0 : 0 ≤ SeriesAngle.angle) {a : ℝ} (ha : 0 ≤ a)
    (ha1 : a ≤ 1) : |inverseHalfSine a - 2| ≤ a * a := by
  have hsq : 0 ≤ a * a := mul_nonneg ha ha
  have hsq1 : a * a ≤ 1 := by nlinarith
  rw [inverseHalfSine_eq, abs_le]
  split
  · constructor <;> nlinarith [mul_nonneg hsq hsq]
  · rename_i hs
    have hpos : 0 < a := lt_of_le_of_lt h0 (not_le.mp hs)
    have hlt : Real.sin (a / 2) < a / 2 := Real.sin_lt (half_pos hpos)
    have hgt : a / 2 - (a / 2) ^ 3 / 6 < Real.sin (a / 2) := Real.sin_gt_sub_cube (half_pos hpos)
    have hsin : 0 < Real.sin (a / 2) := by nlinarith [mul_pos hpos hpos]
    have hlower : 2 ≤ a / Real.sin (a / 2) := by
      rw [le_div_iff₀ hsin]
      linarith
    have hupper : a / Real.sin (a / 2) ≤ 2 + a * a := by
      rw [div_le_iff₀ hsin]
      nlinarith [mul_pos hpos (mul_pos hpos hpos), mul_nonneg hsq (sub_nonneg.mpr hgt.le)]
    constructor <;> linarith

/-- At angle zero the rotation vector moves with the spin. -/
theorem hasRate_logarithm_of_eq_zero (h0 : 0 ≤ SeriesAngle.angle)
    (hR : ∀ᶠ s in 𝓝 t, (R s).IsRotation) (h : Mat3.HasRate R (Mat3.skew u * R t) t)
    (htheta : logarithm (R t) = 0) : Vec3.HasRate (fun s => logarithm (R s)) u t := by
  have hvec : (principal (R t)).vector = 0 := principal_vector_of_logarithm_eq_zero h0 htheta
  have hw : (principal (R t)).w = 1 := by
    rw [← cos_half_angle hR.self_of_nhds, angle_eq_zero hvec, zero_div, Real.cos_zero]
  have hrate := hasRate_principal_vector hR h (by rw [hw]; exact one_pos)
  have hangle : ContinuousAt (fun s => angle (R s)) t :=
    (Real.continuous_arcsin.continuousAt.comp hrate.continuousAt_norm).const_mul 2
  obtain ⟨hk, hcont⟩ := continuousAt_of_abs_sub_le
    (fun a => abs_inverseHalfSine_sub_le h0) hangle (angle_eq_zero hvec) fun s => angle_nonneg _
  refine (Vec3.HasRate.smul_of_zero hcont hrate hvec).congr_rate ?_
  rw [angle_eq_zero hvec, hk, hvec, hw, Vec3.cross_zero, add_zero, one_smul, smul_smul]
  norm_num

/-- The angle moves with the spin about the axis. -/
theorem hasDerivAt_angle (hR : ∀ᶠ s in 𝓝 t, (R s).IsRotation)
    (h : Mat3.HasRate R (Mat3.skew u * R t) t) (hw : 0 < (principal (R t)).w)
    (hn : 0 < (principal (R t)).vector.norm) :
    HasDerivAt (fun s => angle (R s))
      (u.dot ((principal (R t)).vector.norm⁻¹ • (principal (R t)).vector)) t := by
  have hsq := principal_square hR.self_of_nhds
  rw [square_eq, ← Vec3.norm_mul_self] at hsq
  have hlt : (principal (R t)).vector.norm < 1 := by nlinarith
  have hroot : Real.sqrt (1 - (principal (R t)).vector.norm ^ 2) = (principal (R t)).w := by
    rw [show 1 - (principal (R t)).vector.norm ^ 2 = (principal (R t)).w ^ 2 by linarith,
      Real.sqrt_sq hw.le]
  have hnorm := (hasRate_principal_vector hR h hw).norm hn
  have harcsin := Real.hasDerivAt_arcsin (x := (principal (R t)).vector.norm) (by linarith)
    hlt.ne
  refine ((harcsin.comp t hnorm).const_mul 2).congr_deriv ?_
  rw [hroot]
  simp only [Vec3.smul_dot, Vec3.dot_smul, Vec3.dot_add, Vec3.dot_cross_self_right,
    Vec3.dot_comm (principal (R t)).vector u]
  field_simp
  ring

/-- Above the series the rotation vector is the angle along the axis. -/
theorem logarithm_of_lt {m : Mat3 ℝ} (hm : m.IsRotation) (ha : SeriesAngle.angle < angle m) :
    logarithm m = angle m • (principal m).vector.norm⁻¹ • (principal m).vector := by
  rw [logarithm, inverseHalfSine_eq, if_neg (not_le.mpr ha), sin_half_angle hm, smul_smul,
    div_eq_mul_inv]

/-- Above the series and below half a turn the rotation vector moves by the
closed form of the tangent. -/
theorem hasRate_logarithm_of_lt (hR : ∀ᶠ s in 𝓝 t, (R s).IsRotation)
    (h : Mat3.HasRate R (Mat3.skew u * R t) t) (h0 : 0 < angle (R t))
    (hseries : SeriesAngle.angle < angle (R t)) (hpi : angle (R t) < Real.pi) :
    Vec3.HasRate (fun s => logarithm (R s))
      ((Tangent.spinToVectorWith (Tangent.closed (angle (R t))).eta (logarithm (R t))).apply u)
      t := by
  obtain ⟨hs, hc⟩ := Trigonometry.sin_cos_half_pos h0 hpi
  have hw : 0 < (principal (R t)).w := cos_half_angle hR.self_of_nhds ▸ hc
  have hn : 0 < (principal (R t)).vector.norm := sin_half_angle hR.self_of_nhds ▸ hs
  have hangle := hasDerivAt_angle hR h hw hn
  have hvector := hasRate_principal_vector hR h hw
  have hnear : ∀ᶠ s in 𝓝 t, logarithm (R s)
      = angle (R s) • (principal (R s)).vector.norm⁻¹ • (principal (R s)).vector := by
    filter_upwards [hR, hangle.continuousAt.eventually_const_lt hseries] with s hs hlt
    exact logarithm_of_lt hs hlt
  refine ((Vec3.HasRate.smul hangle (hvector.divide_norm hn)).congr_of_eventuallyEq
    hnear).congr_rate ?_
  rw [logarithm_of_lt hR.self_of_nhds hseries, Tangent.spinToVectorWith_apply,
    Tangent.closed_eta_half h0.ne' hs.ne' hc.ne', sin_half_angle hR.self_of_nhds,
    cos_half_angle hR.self_of_nhds]
  set a := angle (R t)
  set w := (principal (R t)).w
  set v := (principal (R t)).vector
  have ha : a ≠ 0 := h0.ne'
  have hn' : v.norm ≠ 0 := hn.ne'
  have hunit : (v.norm⁻¹ • v).dot (v.norm⁻¹ • v) = 1 := Vec3.dot_divide_norm hn
  have hv : v = v.norm • v.norm⁻¹ • v := (Vec3.norm_smul_divide hn).symm
  generalize v.norm⁻¹ • v = e at hunit hv ⊢
  generalize v.norm = n at hn' hv ⊢
  rw [hv]
  simp only [Vec3.smul_cross, Vec3.cross_smul, Vec3.cross_cross, Vec3.smul_dot, Vec3.dot_smul,
    Vec3.dot_add, Vec3.dot_neg, Vec3.dot_cross_self_left, hunit, Vec3.dot_comm u e,
    Vec3.cross_anticomm u e]
  match_scalars <;> field_simp <;> ring

/-- **The rotation vector of a moving rotation** moves by the tangent at its
value, wherever the tolerances cover it. -/
theorem hasRate_logarithm (h0 : 0 ≤ SeriesAngle.angle)
    (hsmall : SeriesAngle.angle < tol.smallAngle) (hR : ∀ᶠ s in 𝓝 t, (R s).IsRotation)
    (h : Mat3.HasRate R (Mat3.skew u * R t) t) (htheta : tol.Covers (logarithm (R t))) :
    Vec3.HasRate (fun s => logarithm (R s))
      ((Tangent.spinToVector tol (logarithm (R t))).apply u) t := by
  rcases htheta with hzero | ⟨hle, hpi⟩
  · rw [hzero, Tangent.spinToVector_zero, Mat3.one_apply]
    exact hasRate_logarithm_of_eq_zero h0 hR h hzero
  · -- the vector is not longer than the angle, so the angle is above the series
    have hseries : SeriesAngle.angle < angle (R t) :=
      (hsmall.trans_le hle).trans_le (norm_logarithm_le h0 hR.self_of_nhds)
    have hnorm := norm_logarithm h0 hR.self_of_nhds hseries
    rw [Tangent.spinToVector_eq, Tangent.coefficients_of_le hle, hnorm]
    exact hasRate_logarithm_of_lt hR h (h0.trans_lt hseries) hseries (hnorm ▸ hpi)

end Versor

end Corotation
