import Corotation.Proofs.Rotation.Tangent
/-!
# The series of the tangent against its closed form

Below the small angle the coefficients of the tangent are polynomials and above
it quotients that vanish over zero at angle zero. Up to the angle one the
quotients lie above the polynomials by at most `a⁶ / 10⁶` and `a⁶ / (5·10⁶)`
(`series_close`), so the switch between them may stand anywhere up to there.

Each difference is one quotient (`closed_sub_series_eta`,
`closed_sub_series_mu`). Its numerator is put between two polynomials by the
partial sums of the sine and the cosine. All terms below the ninth and the
twelfth power cancel from these, and what is left alternates in sign with
decreasing coefficients.
-/

namespace Corotation

open Finset (sum_range_succ)

namespace Trigonometry

variable {x : ℝ}

theorem six_terms_le_sin (hx : 0 ≤ x) :
    x - x ^ 3 / 6 + x ^ 5 / 120 - x ^ 7 / 5040 + x ^ 9 / 362880 - x ^ 11 / 39916800
      ≤ Real.sin x := by
  refine (le_of_eq ?_).trans (sin_between 2 hx).1
  simp [sineSum, sum_range_succ, Nat.factorial]
  ring

theorem sin_le_seven_terms (hx : 0 ≤ x) :
    Real.sin x ≤ x - x ^ 3 / 6 + x ^ 5 / 120 - x ^ 7 / 5040 + x ^ 9 / 362880
      - x ^ 11 / 39916800 + x ^ 13 / 6227020800 := by
  refine (sin_between 3 hx).2.trans (le_of_eq ?_)
  simp [sineSum, sum_range_succ, Nat.factorial]
  ring

theorem eight_terms_le_cos (hx : 0 ≤ x) :
    1 - x ^ 2 / 2 + x ^ 4 / 24 - x ^ 6 / 720 + x ^ 8 / 40320 - x ^ 10 / 3628800
      + x ^ 12 / 479001600 - x ^ 14 / 87178291200 ≤ Real.cos x := by
  refine (le_of_eq ?_).trans (cos_between 3 hx).1
  simp [cosineSum, sum_range_succ, Nat.factorial]
  ring

theorem cos_le_seven_terms (hx : 0 ≤ x) :
    Real.cos x ≤ 1 - x ^ 2 / 2 + x ^ 4 / 24 - x ^ 6 / 720 + x ^ 8 / 40320 - x ^ 10 / 3628800
      + x ^ 12 / 479001600 := by
  refine (cos_between 3 hx).2.trans (le_of_eq ?_)
  simp [cosineSum, sum_range_succ, Nat.factorial]
  ring

/-- A power of a number up to one is below the one two before it. -/
theorem pow_add_two_le (h0 : 0 ≤ x) (h1 : x ≤ 1) (k : ℕ) : x ^ (k + 2) ≤ x ^ k :=
  pow_le_pow_of_le_one h0 h1 (Nat.le_add_right k 2)

/-! ## Four sums without their leading terms -/

theorem etaGap_nonneg (h0 : 0 ≤ x) (h1 : x ≤ 1) :
    0 ≤ Real.sin x * (2 - x ^ 2 / 6 - x ^ 4 / 360 - x ^ 6 / 15120) - x * (1 + Real.cos x) := by
  have hpow := pow_add_two_le h0 h1
  have hfactor : 0 ≤ 2 - x ^ 2 / 6 - x ^ 4 / 360 - x ^ 6 / 15120 := by
    have h2 : x ^ 2 ≤ x ^ 0 := hpow 0
    have h4 : x ^ 4 ≤ x ^ 2 := hpow 2
    have h6 : x ^ 6 ≤ x ^ 4 := hpow 4
    linarith
  have hsin := mul_le_mul_of_nonneg_right (six_terms_le_sin h0) hfactor
  have hcos := mul_le_mul_of_nonneg_left (cos_le_seven_terms h0) h0
  have h11 : x ^ 11 ≤ x ^ 9 := hpow 9
  have h13 : x ^ 13 ≤ x ^ 11 := hpow 11
  have h15 : x ^ 15 ≤ x ^ 13 := hpow 13
  have h17 : x ^ 17 ≤ x ^ 15 := hpow 15
  linarith [pow_nonneg h0 17]

theorem etaGap_le (h0 : 0 ≤ x) (h1 : x ≤ 1) :
    Real.sin x * (2 - x ^ 2 / 6 - x ^ 4 / 360 - x ^ 6 / 15120) - x * (1 + Real.cos x)
      ≤ x ^ 6 / 10 ^ 6 * (2 * x ^ 2 * Real.sin x) := by
  have hpow := pow_add_two_le h0 h1
  have hfactor : 0 ≤ 2 - x ^ 2 / 6 - x ^ 4 / 360 - x ^ 6 / 15120 - 2 * x ^ 8 / 10 ^ 6 := by
    have h2 : x ^ 2 ≤ x ^ 0 := hpow 0
    have h4 : x ^ 4 ≤ x ^ 2 := hpow 2
    have h6 : x ^ 6 ≤ x ^ 4 := hpow 4
    have h8 : x ^ 8 ≤ x ^ 6 := hpow 6
    linarith
  have hsin := mul_le_mul_of_nonneg_right (sin_le_seven_terms h0) hfactor
  have hcos := mul_le_mul_of_nonneg_left (eight_terms_le_cos h0) h0
  have h11 : x ^ 11 ≤ x ^ 9 := hpow 9
  have h13 : x ^ 13 ≤ x ^ 11 := hpow 11
  have h15 : x ^ 15 ≤ x ^ 13 := hpow 13
  have h17 : x ^ 17 ≤ x ^ 15 := hpow 15
  have h19 : x ^ 19 ≤ x ^ 17 := hpow 17
  have h21 : x ^ 21 ≤ x ^ 19 := hpow 19
  linarith [pow_nonneg h0 21]

theorem muGap_nonneg (h0 : 0 ≤ x) (h1 : x ≤ 1) :
    0 ≤ x ^ 2 + x * Real.sin x
      - (4 + x ^ 4 / 180 + x ^ 6 / 3780 + x ^ 8 / 100800) * (1 - Real.cos x) := by
  have hpow := pow_add_two_le h0 h1
  have hfactor : 0 ≤ 4 + x ^ 4 / 180 + x ^ 6 / 3780 + x ^ 8 / 100800 := by positivity
  have hsin := mul_le_mul_of_nonneg_left (six_terms_le_sin h0) h0
  have hcos := mul_le_mul_of_nonneg_left (eight_terms_le_cos h0) hfactor
  have h14 : x ^ 14 ≤ x ^ 12 := hpow 12
  have h16 : x ^ 16 ≤ x ^ 14 := hpow 14
  have h18 : x ^ 18 ≤ x ^ 16 := hpow 16
  have h20 : x ^ 20 ≤ x ^ 18 := hpow 18
  have h22 : x ^ 22 ≤ x ^ 20 := hpow 20
  linarith [pow_nonneg h0 22]

theorem muGap_le (h0 : 0 ≤ x) (h1 : x ≤ 1) :
    x ^ 2 + x * Real.sin x
      - (4 + x ^ 4 / 180 + x ^ 6 / 3780 + x ^ 8 / 100800) * (1 - Real.cos x)
      ≤ x ^ 6 / (5 * 10 ^ 6) * (2 * x ^ 4 * (1 - Real.cos x)) := by
  have hpow := pow_add_two_le h0 h1
  have hfactor : 0 ≤ 4 + x ^ 4 / 180 + x ^ 6 / 3780 + x ^ 8 / 100800
      + 2 * x ^ 10 / (5 * 10 ^ 6) := by positivity
  have hsin := mul_le_mul_of_nonneg_left (sin_le_seven_terms h0) h0
  have hcos := mul_le_mul_of_nonneg_left (cos_le_seven_terms h0) hfactor
  have h14 : x ^ 14 ≤ x ^ 12 := hpow 12
  have h16 : x ^ 16 ≤ x ^ 14 := hpow 14
  have h18 : x ^ 18 ≤ x ^ 16 := hpow 16
  have h20 : x ^ 20 ≤ x ^ 18 := hpow 18
  have h22 : x ^ 22 ≤ x ^ 20 := hpow 20
  linarith [pow_nonneg h0 22]

/-- No denominator vanishes on the way to the angle one. -/
theorem sin_pos_and_cos_lt_one (h0 : 0 < x) (h1 : x ≤ 1) :
    0 < Real.sin x ∧ 0 < 1 - Real.cos x := by
  have hsin : 0 < Real.sin x := Real.sin_pos_of_pos_of_le_one h0 h1
  refine ⟨hsin, ?_⟩
  nlinarith [Real.sin_sq_add_cos_sq x, Real.cos_le_one x]

end Trigonometry

namespace Tangent

variable [SeriesAngle] {a : ℝ}

theorem series_mu (a : ℝ) :
    (series a).mu = 1 / 360 + a * a / 7560 + a * a * (a * a) / 201600 := rfl

theorem closed_sub_series_eta (h0 : a ≠ 0) (hs : Real.sin a ≠ 0) :
    (closed a).eta - (series a).eta
      = (Real.sin a * (2 - a ^ 2 / 6 - a ^ 4 / 360 - a ^ 6 / 15120) - a * (1 + Real.cos a))
        / (2 * a ^ 2 * Real.sin a) := by
  rw [closed_eta, series_eta]
  field_simp
  ring

theorem closed_sub_series_mu (h0 : a ≠ 0) (hc : 1 - Real.cos a ≠ 0) :
    (closed a).mu - (series a).mu
      = (a ^ 2 + a * Real.sin a
          - (4 + a ^ 4 / 180 + a ^ 6 / 3780 + a ^ 8 / 100800) * (1 - Real.cos a))
        / (2 * a ^ 4 * (1 - Real.cos a)) := by
  have hhalf : Real.sin (a / 2) * Real.sin (a / 2) = (1 - Real.cos a) / 2 := by
    rw [← pow_two, Real.sin_sq_eq_half_sub, mul_div_cancel₀ a two_ne_zero]
    ring
  rw [closed_mu, series_mu, hhalf]
  field_simp
  ring

/-- The first coefficient in closed form lies above its series, and by little. -/
theorem series_eta_close (h0 : 0 < a) (h1 : a ≤ 1) :
    0 ≤ (closed a).eta - (series a).eta
      ∧ (closed a).eta - (series a).eta ≤ a ^ 6 / 10 ^ 6 := by
  have hsin := (Trigonometry.sin_pos_and_cos_lt_one h0 h1).1
  rw [closed_sub_series_eta h0.ne' hsin.ne', div_le_iff₀ (by positivity)]
  exact ⟨div_nonneg (Trigonometry.etaGap_nonneg h0.le h1) (by positivity),
    Trigonometry.etaGap_le h0.le h1⟩

/-- So does the second. -/
theorem series_mu_close (h0 : 0 < a) (h1 : a ≤ 1) :
    0 ≤ (closed a).mu - (series a).mu
      ∧ (closed a).mu - (series a).mu ≤ a ^ 6 / (5 * 10 ^ 6) := by
  have hcos := (Trigonometry.sin_pos_and_cos_lt_one h0 h1).2
  rw [closed_sub_series_mu h0.ne' hcos.ne', div_le_iff₀ (by positivity)]
  exact ⟨div_nonneg (Trigonometry.muGap_nonneg h0.le h1) (by positivity),
    Trigonometry.muGap_le h0.le h1⟩

/-- **The series of the tangent lie just below the closed form** up to the angle
one. Wherever the switch between the two stands up to there, the coefficients
taken from the series are this close to the closed form. -/
theorem series_close :
    (∀ a : ℝ, 0 < a → a ≤ 1 →
      (0 ≤ (closed a).eta - (series a).eta
          ∧ (closed a).eta - (series a).eta ≤ a ^ 6 / 10 ^ 6)
        ∧ 0 ≤ (closed a).mu - (series a).mu
          ∧ (closed a).mu - (series a).mu ≤ a ^ 6 / (5 * 10 ^ 6))
      ∧ ∀ tol : Tolerances ℝ, 0 < tol.smallAngle → tol.smallAngle ≤ 1 →
        ∀ a : ℝ, 0 < a → a < tol.smallAngle →
          coefficients tol a = series a
            ∧ |(closed a).eta - (coefficients tol a).eta| ≤ a ^ 6 / 10 ^ 6
            ∧ |(closed a).mu - (coefficients tol a).mu| ≤ a ^ 6 / (5 * 10 ^ 6) := by
  refine ⟨fun a h0 h1 => ⟨series_eta_close h0 h1, series_mu_close h0 h1⟩,
    fun tol _ hone a h0 hlt => ?_⟩
  have heta := series_eta_close h0 (hlt.le.trans hone)
  have hmu := series_mu_close h0 (hlt.le.trans hone)
  rw [coefficients_of_lt hlt, abs_of_nonneg heta.1, abs_of_nonneg hmu.1]
  exact ⟨rfl, heta.2, hmu.2⟩

omit [SeriesAngle] in
/-- At half of the standard small angle. -/
theorem series_close_standard :
    letI : SeriesAngle := .exact
    coefficients Tolerances.standard (1 / 40 : ℝ) = series (1 / 40 : ℝ)
      ∧ |(closed (1 / 40 : ℝ)).eta - (coefficients Tolerances.standard (1 / 40 : ℝ)).eta|
        ≤ (1 / 40) ^ 6 / 10 ^ 6
      ∧ |(closed (1 / 40 : ℝ)).mu - (coefficients Tolerances.standard (1 / 40 : ℝ)).mu|
        ≤ (1 / 40) ^ 6 / (5 * 10 ^ 6) := by
  let _ : SeriesAngle := .exact
  have hsmall : (Tolerances.standard : Tolerances ℝ).smallAngle = 1 / 20 := rfl
  refine series_close.2 Tolerances.standard ?_ ?_ (1 / 40) (by norm_num) ?_
  all_goals rw [hsmall]; norm_num

end Tangent

end Corotation
