import Mathlib.Analysis.SpecialFunctions.Trigonometric.InverseDeriv
import Corotation.Proofs.Rotation.Extraction
import Corotation.Proofs.Scalar.Trigonometry
/-!
# The rotation vector of a rotation

Of the two versors of a rotation the extraction returns the `principal` one,
whose scalar part is not negative. The rotation vector is that versor's vector
part stretched to the angle, so its length is at most the angle and, above the
series, exactly the angle (`norm_logarithm`).

Below half a turn the principal versor is a smooth function of the entries of
the matrix. So a rotation that moves with a spatial spin moves its principal
versor by half the product with the spin (`hasRate_principal_vector`,
`hasDerivAt_principal_w`).
-/

open Topology

namespace Corotation

namespace Versor

variable [SeriesAngle] {m : Mat3 ℝ} {q : Versor ℝ}

/-! ## The canonical versor -/

theorem canonical_cases (q : Versor ℝ) :
    (q.canonical = q ∧ 0 ≤ q.w) ∨ (q.canonical = ⟨-q.x, -q.y, -q.z, -q.w⟩ ∧ q.w ≤ 0) := by
  unfold canonical
  split
  · rename_i h
    refine .inl ⟨rfl, ?_⟩
    by_contra hw
    exact h (.inl (Scalar.lt_real.mpr (not_le.mp hw)))
  · rename_i h
    refine .inr ⟨rfl, ?_⟩
    by_contra hw
    refine h fun hneg => ?_
    simp only [Scalar.lt_real, Scalar.isZero_real] at hneg
    rcases hneg with hlt | ⟨h0, -⟩
    · exact hw hlt.le
    · exact hw h0.le

theorem canonical_w_nonneg (q : Versor ℝ) : 0 ≤ q.canonical.w := by
  rcases canonical_cases q with ⟨h, hw⟩ | ⟨h, hw⟩
  · rw [h]
    exact hw
  · rw [h]
    exact neg_nonneg.mpr hw

theorem canonical_square (q : Versor ℝ) : q.canonical.square = q.square := by
  rcases canonical_cases q with ⟨h, -⟩ | ⟨h, -⟩ <;> rw [h]
  unfold square
  ring

theorem canonical_toMatrix (q : Versor ℝ) : q.canonical.toMatrix = q.toMatrix := by
  rcases canonical_cases q with ⟨h, -⟩ | ⟨h, -⟩ <;> rw [h]
  rw [toMatrix_eq, toMatrix_eq]
  ext <;> simp [vector, Mat3.outer, Mat3.skew_eq, Vec3.dot_eq]

/-! ## The principal versor -/

/-- Of the versors of a rotation the one that is read off as its rotation
vector. -/
noncomputable def principal (m : Mat3 ℝ) : Versor ℝ := (ofRotation m).canonical

theorem principal_w_nonneg (m : Mat3 ℝ) : 0 ≤ (principal m).w := canonical_w_nonneg _

theorem principal_square (h : m.IsRotation) : (principal m).square = 1 := by
  rw [principal, canonical_square, ofRotation_square h]

theorem principal_toMatrix (h : m.IsRotation) : (principal m).toMatrix = m := by
  rw [principal, canonical_toMatrix, toMatrix_ofRotation h]

theorem principal_carries (h : m.IsRotation) : (principal m).Carries (1 / 4) m := by
  have := carries_toMatrix (principal_square h)
  rwa [principal_toMatrix h] at this

/-- The vector of the part of a matrix that is not symmetric. -/
noncomputable def axial (m : Mat3 ℝ) : Vec3 ℝ :=
  ⟨m.r3.y - m.r2.z, m.r1.z - m.r3.x, m.r2.x - m.r1.y⟩

/-- The scalar part by the trace. -/
theorem principal_w (h : m.IsRotation) : (principal m).w = Real.sqrt (1 + m.trace) / 2 := by
  have hww : (principal m).w * (principal m).w = (1 + m.trace) / 4 := by
    rw [(principal_carries h).ww]
    change _ = (1 + (m.r1.x + m.r2.y + m.r3.z)) / 4
    ring
  have hnonneg := principal_w_nonneg m
  have : 1 + m.trace = (2 * (principal m).w) ^ 2 := by linarith [hww]
  rw [this, Real.sqrt_sq (by positivity)]
  ring

/-- The vector part by the part that is not symmetric. -/
theorem smul_principal_vector (h : m.IsRotation) :
    (4 * (principal m).w) • (principal m).vector = axial m := by
  have hq := principal_carries h
  ext
  · change 4 * (principal m).w * (principal m).x = m.r3.y - m.r2.z
    linarith [hq.xw]
  · change 4 * (principal m).w * (principal m).y = m.r1.z - m.r3.x
    linarith [hq.yw]
  · change 4 * (principal m).w * (principal m).z = m.r2.x - m.r1.y
    linarith [hq.zw]

/-- Below half a turn the vector part is a quotient. -/
theorem principal_vector (h : m.IsRotation) (hw : 0 < (principal m).w) :
    (principal m).vector = (4 * (principal m).w)⁻¹ • axial m := by
  rw [← smul_principal_vector h, smul_smul, inv_mul_cancel₀ (by positivity), one_smul]

/-- The vector part is not longer than one. -/
theorem principal_norm_le (h : m.IsRotation) : (principal m).vector.norm ≤ 1 := by
  have hsq := principal_square h
  rw [square_eq, ← Vec3.norm_mul_self] at hsq
  nlinarith [(principal m).vector.norm_nonneg, mul_self_nonneg (principal m).w]

/-! ## The rotation vector -/

/-- The angle of a rotation. -/
noncomputable def angle (m : Mat3 ℝ) : ℝ := 2 * Real.arcsin (principal m).vector.norm

theorem angle_nonneg (m : Mat3 ℝ) : 0 ≤ angle m :=
  mul_nonneg zero_le_two (Real.arcsin_nonneg.mpr (Vec3.norm_nonneg _))

theorem angle_le_pi (m : Mat3 ℝ) : angle m ≤ Real.pi := by
  have := Real.arcsin_le_pi_div_two (principal m).vector.norm
  unfold angle
  linarith

/-- The sine of half the angle is the length of the vector part. -/
theorem sin_half_angle (h : m.IsRotation) :
    Real.sin (angle m / 2) = (principal m).vector.norm := by
  rw [angle, mul_div_cancel_left₀ _ two_ne_zero]
  exact Real.sin_arcsin (by linarith [(principal m).vector.norm_nonneg]) (principal_norm_le h)

/-- The cosine of half the angle is the scalar part. -/
theorem cos_half_angle (h : m.IsRotation) : Real.cos (angle m / 2) = (principal m).w := by
  have hsq := principal_square h
  rw [square_eq, ← Vec3.norm_mul_self] at hsq
  rw [angle, mul_div_cancel_left₀ _ two_ne_zero, Real.cos_arcsin,
    show 1 - (principal m).vector.norm ^ 2 = (principal m).w ^ 2 by linarith,
    Real.sqrt_sq (principal_w_nonneg m)]

/-- The factor from the vector part to the rotation vector. -/
theorem inverseHalfSine_eq (a : ℝ) :
    inverseHalfSine a = if a ≤ SeriesAngle.angle then
        2 + a * a / 12 + 7 * (a * a) * (a * a) / 2880
      else a / Real.sin (a / 2) := by
  unfold inverseHalfSine
  simp only [Scalar.le_real]
  rfl

/-- The rotation vector of a rotation. -/
noncomputable def logarithm (m : Mat3 ℝ) : Vec3 ℝ :=
  inverseHalfSine (angle m) • (principal m).vector

/-- **Every rotation has its rotation vector.** -/
theorem rotationVector_eq (h : m.IsRotation) : rotationVector m = .ok (logarithm m) := by
  have hnorm : ‖(⟨(principal m).w, (principal m).vector.norm⟩ : ℂ)‖ = 1 := by
    rw [Complex.norm_def, Complex.normSq_mk, Vec3.norm_mul_self, add_comm, ← square_eq,
      principal_square h, Real.sqrt_one]
  have hangle : 2 * Complex.arg ⟨(principal m).w, (principal m).vector.norm⟩ = angle m := by
    rw [Complex.arg, if_pos (principal_w_nonneg m), hnorm, div_one, angle]
  unfold rotationVector
  rw [ofMatrix_eq h]
  change Except.ok (inverseHalfSine (2 * Complex.arg
    ⟨(principal m).w, (principal m).vector.norm⟩) • (principal m).vector) = _
  rw [hangle, logarithm]

/-- The angle vanishes with the vector part. -/
theorem angle_eq_zero (h : (principal m).vector = 0) : angle m = 0 := by
  rw [angle, h, Vec3.norm_zero, Real.arcsin_zero, mul_zero]

/-- The rotation by no angle has no rotation vector. -/
theorem logarithm_one : logarithm 1 = 0 := by
  have hcarries := principal_carries Mat3.IsRotation.one
  have hx : (principal 1).x = 0 := by simpa using hcarries.xx
  have hy : (principal 1).y = 0 := by simpa using hcarries.yy
  have hz : (principal 1).z = 0 := by simpa using hcarries.zz
  have hvector : (principal 1).vector = 0 := Vec3.ext hx hy hz
  rw [logarithm, hvector, smul_zero]

theorem inverseHalfSine_pos (h0 : 0 ≤ SeriesAngle.angle) {a : ℝ} (ha : 0 ≤ a)
    (hpi : a ≤ Real.pi) : 0 < inverseHalfSine a := by
  rw [inverseHalfSine_eq]
  split
  · positivity
  · rename_i hs
    have hpos : 0 < a := lt_of_le_of_lt h0 (not_le.mp hs)
    exact div_pos hpos (Real.sin_pos_of_pos_of_lt_pi (by positivity) (by linarith [Real.pi_pos]))

/-- Only the rotation by no angle has the rotation vector zero. -/
theorem principal_vector_of_logarithm_eq_zero (h0 : 0 ≤ SeriesAngle.angle)
    (h : logarithm m = 0) : (principal m).vector = 0 := by
  have hk := inverseHalfSine_pos h0 (angle_nonneg m) (angle_le_pi m)
  exact (smul_eq_zero.mp h).resolve_left hk.ne'

theorem norm_logarithm_eq (h0 : 0 ≤ SeriesAngle.angle) (h : m.IsRotation) :
    (logarithm m).norm = inverseHalfSine (angle m) * Real.sin (angle m / 2) := by
  rw [logarithm, Vec3.norm_smul, sin_half_angle h,
    abs_of_pos (inverseHalfSine_pos h0 (angle_nonneg m) (angle_le_pi m))]

/-- **Above the series the length of the rotation vector is the angle.** -/
theorem norm_logarithm (h0 : 0 ≤ SeriesAngle.angle) (h : m.IsRotation)
    (ha : SeriesAngle.angle < angle m) : (logarithm m).norm = angle m := by
  have hpos : 0 < angle m := lt_of_le_of_lt h0 ha
  have hsin : 0 < Real.sin (angle m / 2) :=
    Real.sin_pos_of_pos_of_lt_pi (by positivity) (by linarith [angle_le_pi m, Real.pi_pos])
  rw [norm_logarithm_eq h0 h, inverseHalfSine_eq, if_neg (not_le.mpr ha),
    div_mul_cancel₀ _ hsin.ne']

/-- The rotation vector is never longer than the angle. -/
theorem norm_logarithm_le (h0 : 0 ≤ SeriesAngle.angle) (h : m.IsRotation) :
    (logarithm m).norm ≤ angle m := by
  rcases lt_or_ge SeriesAngle.angle (angle m) with ha | ha
  · exact (norm_logarithm h0 h ha).le
  · rw [norm_logarithm_eq h0 h, inverseHalfSine_eq, if_pos ha]
    exact Trigonometry.series_mul_sin_le (angle_nonneg m) (angle_le_pi m)

/-! ## The rotation vector of an increment -/

/-- A versor with positive scalar part is the principal one of its matrix. -/
theorem principal_toMatrix_of_pos (h : q.square = 1) (hw : 0 < q.w) :
    principal q.toMatrix = q := by
  have hp := principal_carries (isRotation_toMatrix h)
  have hq := carries_toMatrix h
  have hscalar : (principal q.toMatrix).w = q.w :=
    (mul_self_inj (principal_w_nonneg _) hw.le).mp (hp.ww.trans hq.ww.symm)
  have hpart {x y : ℝ} (hxy : x * (principal q.toMatrix).w = y * q.w) : x = y := by
    rw [hscalar] at hxy
    exact mul_right_cancel₀ hw.ne' hxy
  exact Versor.ext (hpart (hp.xw.trans hq.xw.symm)) (hpart (hp.yw.trans hq.yw.symm))
    (hpart (hp.zw.trans hq.zw.symm)) hscalar

/-- **Below half a turn and above the series** the rotation vector of the rotation
of an increment is the increment. -/
theorem logarithm_turn {v : Vec3 ℝ} (h0 : 0 ≤ SeriesAngle.angle) (h : SeriesAngle.angle < v.norm)
    (hpi : v.norm < Real.pi) : logarithm (turn v).toMatrix = v := by
  have hpos : 0 < v.norm := h0.trans_lt h
  obtain ⟨hs, hc⟩ := Trigonometry.sin_cos_half_pos hpos hpi
  have hk : halfSine v.norm = Real.sin (v.norm / 2) / v.norm := by
    rw [halfSine_eq, if_neg (not_le.mpr h)]
  have hprincipal : principal (turn v).toMatrix = ofVector v := by
    rw [turn_eq_ofVector h0 h]
    exact principal_toMatrix_of_pos (ofVector_square_of_lt h0 h) hc
  have hangle : angle (turn v).toMatrix = v.norm := by
    rw [angle, hprincipal, ofVector_vector, Vec3.norm_smul, hk, abs_of_pos (div_pos hs hpos),
      div_mul_cancel₀ _ hpos.ne', Real.arcsin_sin (by linarith) (by linarith)]
    ring
  rw [logarithm, hangle, hprincipal, inverseHalfSine_eq, if_neg (not_le.mpr h), ofVector_vector, hk,
    smul_smul, div_mul_div_cancel₀ hs.ne', div_self hpos.ne', one_smul]

/-! ## The rotation vector in other axes -/

/-- Below half a turn the scalar part is positive. -/
theorem principal_pos_of_norm_lt (h0 : 0 ≤ SeriesAngle.angle)
    (hseries : SeriesAngle.angle < Real.pi)
    (h : m.IsRotation) (hlt : (logarithm m).norm < Real.pi) : 0 < (principal m).w := by
  have hangle : angle m < Real.pi := by
    refine lt_of_le_of_ne (angle_le_pi m) fun heq => hlt.ne ?_
    rw [norm_logarithm h0 h (heq ▸ hseries), heq]
  rw [← cos_half_angle h]
  exact Real.cos_pos_of_mem_Ioo ⟨by linarith [angle_nonneg m, Real.pi_pos], by linarith⟩

/-- The versor with a turned vector part. -/
noncomputable def turnVector (g : Mat3 ℝ) (q : Versor ℝ) : Versor ℝ :=
  ⟨(g.apply q.vector).x, (g.apply q.vector).y, (g.apply q.vector).z, q.w⟩

theorem turnVector_vector (g : Mat3 ℝ) (q : Versor ℝ) :
    (turnVector g q).vector = g.apply q.vector := rfl

/-- It has the matrix in the turned axes. -/
theorem toMatrix_turnVector {g : Mat3 ℝ} (hg : g.IsRotation) (q : Versor ℝ) :
    (turnVector g q).toMatrix = g * q.toMatrix * g.transpose := by
  refine Mat3.ext_apply fun x => ?_
  simp only [Mat3.mul_apply, toMatrix_apply, turnVector_vector, Mat3.apply_dot, Mat3.apply_smul,
    Mat3.apply_add, hg.apply_cross, hg.dot_apply_apply, hg.apply_transpose_apply]
  rfl

/-- **Below half a turn** the rotation vector of a rotation in turned axes is the turned
rotation vector. -/
theorem logarithm_conjugate {g : Mat3 ℝ} (hg : g.IsRotation) (h : m.IsRotation)
    (hw : 0 < (principal m).w) :
    logarithm (g * m * g.transpose) = g.apply (logarithm m) := by
  have hmatrix : (turnVector g (principal m)).toMatrix = g * m * g.transpose := by
    rw [toMatrix_turnVector hg, principal_toMatrix h]
  have hsquare : (turnVector g (principal m)).square = 1 := by
    rw [square_eq, turnVector_vector, hg.dot_apply_apply]
    exact principal_square h
  have hprincipal : principal (g * m * g.transpose) = turnVector g (principal m) := by
    rw [← hmatrix, principal_toMatrix_of_pos hsquare hw]
  have hangle : angle (g * m * g.transpose) = angle m := by
    rw [angle, hprincipal, turnVector_vector, hg.norm_apply, angle]
  rw [logarithm, hangle, hprincipal, turnVector_vector, logarithm, Mat3.apply_smul]

/-! ## The principal versor along a motion -/

theorem hasDerivAt_trace {R : ℝ → Mat3 ℝ} {t : ℝ} (h : Mat3.HasRate R m t) :
    HasDerivAt (fun s => (R s).trace) m.trace t := (h.r1.x.add h.r2.y).add h.r3.z

omit [SeriesAngle] in
theorem hasRate_axial {R : ℝ → Mat3 ℝ} {t : ℝ} (h : Mat3.HasRate R m t) :
    Vec3.HasRate (fun s => axial (R s)) (axial m) t :=
  ⟨h.r3.y.sub h.r2.z, h.r1.z.sub h.r3.x, h.r2.x.sub h.r1.y⟩

/-- The trace of a spin times the matrix of a quaternion. -/
theorem trace_skew_mul_toMatrix (q : Versor ℝ) (u : Vec3 ℝ) :
    (Mat3.skew u * q.toMatrix).trace = -(4 * q.w * u.dot q.vector) := by
  rw [toMatrix_eq]
  change (Mat3.skew u * _).r1.x + (Mat3.skew u * _).r2.y + (Mat3.skew u * _).r3.z = _
  simp [Mat3.outer, Mat3.skew_eq, Vec3.dot_eq, Mat3.c1_eq, Mat3.c2_eq, Mat3.c3_eq]
  ring

/-- The part of a spin times the matrix of a quaternion that is not
symmetric. -/
theorem axial_skew_mul_toMatrix (q : Versor ℝ) (u : Vec3 ℝ) :
    axial (Mat3.skew u * q.toMatrix) = (2 * (q.w * q.w)) • u - (2 * u.dot q.vector) • q.vector
      + (2 * q.w) • u.cross q.vector := by
  rw [toMatrix_eq]
  ext <;> simp [axial, Mat3.outer, Mat3.skew_eq, Vec3.dot_eq, Mat3.c1_eq, Mat3.c2_eq,
    Mat3.c3_eq] <;> ring

section Motion

variable {R : ℝ → Mat3 ℝ} {u : Vec3 ℝ} {t : ℝ}

/-- The scalar part moves against the spin. -/
theorem hasDerivAt_principal_w (hR : ∀ᶠ s in 𝓝 t, (R s).IsRotation)
    (h : Mat3.HasRate R (Mat3.skew u * R t) t) (hw : 0 < (principal (R t)).w) :
    HasDerivAt (fun s => (principal (R s)).w)
      (-(1 / 2) * u.dot (principal (R t)).vector) t := by
  have htrace := hasDerivAt_trace h
  have hroot : Real.sqrt (1 + (R t).trace) = 2 * (principal (R t)).w := by
    rw [principal_w hR.self_of_nhds]
    ring
  have hne : 1 + (R t).trace ≠ 0 := by
    intro h0
    rw [h0, Real.sqrt_zero] at hroot
    linarith
  have hsqrt := ((htrace.const_add 1).sqrt hne).div_const 2
  refine (hsqrt.congr_of_eventuallyEq (hR.mono fun s hs => principal_w hs)).congr_deriv ?_
  have hq := trace_skew_mul_toMatrix (principal (R t)) u
  rw [principal_toMatrix hR.self_of_nhds] at hq
  rw [hroot, hq]
  field_simp
  ring

/-- **The vector part moves with half the product of the spin and the
versor.** -/
theorem hasRate_principal_vector (hR : ∀ᶠ s in 𝓝 t, (R s).IsRotation)
    (h : Mat3.HasRate R (Mat3.skew u * R t) t) (hw : 0 < (principal (R t)).w) :
    Vec3.HasRate (fun s => (principal (R s)).vector)
      ((1 / 2 : ℝ) • ((principal (R t)).w • u + u.cross (principal (R t)).vector)) t := by
  have hrate := hasDerivAt_principal_w hR h hw
  have hpos : ∀ᶠ s in 𝓝 t, 0 < (principal (R s)).w :=
    hrate.continuousAt.eventually_const_lt hw
  have hquotient : ∀ᶠ s in 𝓝 t,
      (principal (R s)).vector = (4 * (principal (R s)).w)⁻¹ • axial (R s) := by
    filter_upwards [hR, hpos] with s hs hws
    exact principal_vector hs hws
  have hinv : HasDerivAt (fun s => (4 * (principal (R s)).w)⁻¹)
      (u.dot (principal (R t)).vector / (8 * (principal (R t)).w ^ 2)) t := by
    refine ((hrate.const_mul 4).inv (by positivity)).congr_deriv ?_
    field_simp
    ring
  refine ((Vec3.HasRate.smul hinv (hasRate_axial h)).congr_of_eventuallyEq hquotient).congr_rate ?_
  have hq := axial_skew_mul_toMatrix (principal (R t)) u
  rw [principal_toMatrix hR.self_of_nhds] at hq
  rw [hq, ← smul_principal_vector hR.self_of_nhds]
  set w := (principal (R t)).w
  set v := (principal (R t)).vector
  have hw' : w ≠ 0 := hw.ne'
  ext <;>
  · simp only [Vec3.add_x, Vec3.add_y, Vec3.add_z, Vec3.sub_x, Vec3.sub_y, Vec3.sub_z, Vec3.smul_x,
      Vec3.smul_y, Vec3.smul_z]
    field_simp
    ring

end Motion

end Versor

end Corotation
