import Mathlib.Analysis.Calculus.InverseFunctionTheorem.Deriv
import Mathlib.Analysis.SpecialFunctions.Trigonometric.Bounds
import Mathlib.Analysis.SpecialFunctions.Trigonometric.Inverse
import Mathlib.Topology.Algebra.Module.ModuleTopology
/-!
# Bounds of the sine and the cosine by partial sums

On the nonnegative axis the partial sums of the two series lie alternately
above and below the function (`partialSums_alternate`). Each bound is the
integral of the one before it (`nonneg_of_deriv_nonneg`).
-/

open scoped Nat Topology
open Finset (range sum_range_succ)

namespace Corotation

namespace Trigonometry

/-- A function that starts at zero and grows from there is not negative. -/
theorem nonneg_of_deriv_nonneg {f f' : ℝ → ℝ} (h0 : f 0 = 0)
    (hf : ∀ x, HasDerivAt f (f' x) x) (hpos : ∀ x, 0 ≤ x → 0 ≤ f' x) {x : ℝ} (hx : 0 ≤ x) :
    0 ≤ f x := by
  have hcont : ContinuousOn f (Set.Ici 0) := fun y _ => (hf y).continuousAt.continuousWithinAt
  have hmono : MonotoneOn f (Set.Ici 0) := by
    refine monotoneOn_of_deriv_nonneg (convex_Ici 0) hcont
      (fun y _ => (hf y).differentiableAt.differentiableWithinAt) fun y hy => ?_
    rw [(hf y).deriv]
    rw [interior_Ici] at hy
    exact hpos y (le_of_lt hy)
  calc 0 = f 0 := h0.symm
    _ ≤ f x := hmono (Set.mem_Ici.mpr le_rfl) (Set.mem_Ici.mpr hx) hx

/-- The first terms of the series of the sine. -/
noncomputable def sineSum (n : ℕ) (x : ℝ) : ℝ :=
  ∑ k ∈ range n, (-1) ^ k * (x ^ (2 * k + 1) / (2 * k + 1)!)

/-- The first terms of the series of the cosine. -/
noncomputable def cosineSum (n : ℕ) (x : ℝ) : ℝ :=
  ∑ k ∈ range n, (-1) ^ k * (x ^ (2 * k) / (2 * k)!)

theorem sineSum_zero_right (n : ℕ) : sineSum n 0 = 0 := by simp [sineSum]

theorem cosineSum_zero_right (n : ℕ) : cosineSum (n + 1) 0 = 1 := by
  rw [cosineSum, Finset.sum_range_succ']
  simp

/-- A power over its factorial has the one before it for its derivative. -/
theorem hasDerivAt_pow_div_factorial (n : ℕ) (x : ℝ) :
    HasDerivAt (fun y : ℝ => y ^ (n + 1) / (n + 1)!) (x ^ n / n !) x := by
  refine ((hasDerivAt_pow (n + 1) x).div_const _).congr_deriv ?_
  rw [Nat.factorial_succ]
  push_cast
  field_simp

theorem hasDerivAt_sineSum (n : ℕ) (x : ℝ) : HasDerivAt (sineSum n) (cosineSum n x) x := by
  unfold sineSum cosineSum
  exact HasDerivAt.fun_sum fun k _ => (hasDerivAt_pow_div_factorial (2 * k) x).const_mul _

theorem hasDerivAt_cosineSum (n : ℕ) (x : ℝ) :
    HasDerivAt (cosineSum (n + 1)) (-sineSum n x) x := by
  let term (k : ℕ) (y : ℝ) : ℝ := (-1) ^ (k + 1) * (y ^ (2 * (k + 1)) / (2 * (k + 1))!)
  have hterm (k : ℕ) :
      HasDerivAt (term k) (-((-1) ^ k * (x ^ (2 * k + 1) / (2 * k + 1)!))) x := by
    refine ((hasDerivAt_pow_div_factorial (2 * k + 1) x).const_mul _).congr_deriv ?_
    ring
  have hsum : cosineSum (n + 1) = fun y => (∑ k ∈ range n, term k y) + 1 := by
    funext y
    rw [cosineSum, Finset.sum_range_succ']
    simp [term]
  rw [hsum, sineSum, ← Finset.sum_neg_distrib]
  exact (HasDerivAt.fun_sum fun k _ => hterm k).add_const 1

/-- **The partial sums lie alternately above and below** the cosine and the sine. -/
theorem partialSums_alternate (n : ℕ) : (∀ x : ℝ, 0 ≤ x →
      0 ≤ (-1) ^ n * (cosineSum (n + 1) x - Real.cos x))
    ∧ ∀ x : ℝ, 0 ≤ x → 0 ≤ (-1) ^ n * (sineSum (n + 1) x - Real.sin x) := by
  have hsine {n : ℕ} (hcos : ∀ x : ℝ, 0 ≤ x → 0 ≤ (-1) ^ n * (cosineSum (n + 1) x - Real.cos x)) :
      ∀ x : ℝ, 0 ≤ x → 0 ≤ (-1) ^ n * (sineSum (n + 1) x - Real.sin x) :=
    fun x => nonneg_of_deriv_nonneg (by simp [sineSum_zero_right])
      (fun y => ((hasDerivAt_sineSum (n + 1) y).sub (Real.hasDerivAt_sin y)).const_mul _) hcos
  induction n with
  | zero =>
    have hcos (x : ℝ) : 0 ≤ (-1) ^ 0 * (cosineSum (0 + 1) x - Real.cos x) := by
      simpa [cosineSum] using Real.cos_le_one x
    exact ⟨fun x _ => hcos x, hsine fun x _ => hcos x⟩
  | succ n ih =>
    have hderiv (x : ℝ) : HasDerivAt
        (fun y => (-1) ^ (n + 1) * (cosineSum (n + 1 + 1) y - Real.cos y))
        ((-1) ^ n * (sineSum (n + 1) x - Real.sin x)) x := by
      refine (((hasDerivAt_cosineSum (n + 1) x).sub (Real.hasDerivAt_cos x)).const_mul
        _).congr_deriv ?_
      ring
    have hcos (x : ℝ) : 0 ≤ x → 0 ≤ (-1) ^ (n + 1) * (cosineSum (n + 1 + 1) x - Real.cos x) :=
      nonneg_of_deriv_nonneg (by simp [cosineSum_zero_right]) hderiv ih.2
    exact ⟨hcos, hsine hcos⟩

/-- The sine lies between any two consecutive partial sums, an odd number of terms above. -/
theorem sin_between (n : ℕ) {x : ℝ} (hx : 0 ≤ x) :
    sineSum (2 * n + 2) x ≤ Real.sin x ∧ Real.sin x ≤ sineSum (2 * n + 1) x := by
  have hlower := (partialSums_alternate (2 * n + 1)).2 x hx
  have hupper := (partialSums_alternate (2 * n)).2 x hx
  rw [pow_succ, (even_two_mul n).neg_one_pow] at hlower
  rw [(even_two_mul n).neg_one_pow] at hupper
  constructor <;> linarith

theorem cos_between (n : ℕ) {x : ℝ} (hx : 0 ≤ x) :
    cosineSum (2 * n + 2) x ≤ Real.cos x ∧ Real.cos x ≤ cosineSum (2 * n + 1) x := by
  have hlower := (partialSums_alternate (2 * n + 1)).1 x hx
  have hupper := (partialSums_alternate (2 * n)).1 x hx
  rw [pow_succ, (even_two_mul n).neg_one_pow] at hlower
  rw [(even_two_mul n).neg_one_pow] at hupper
  constructor <;> linarith

/-- The sine lies below its first three terms. -/
theorem sin_le_quintic {x : ℝ} (hx : 0 ≤ x) :
    Real.sin x ≤ x - x ^ 3 / 6 + x ^ 5 / 120 := by
  refine (sin_between 1 hx).2.trans (le_of_eq ?_)
  simp [sineSum, sum_range_succ, Nat.factorial]
  ring

/-- **The series of an angle over the sine of its half lies below the
quotient**, up to half a turn. -/
theorem series_mul_sin_le {a : ℝ} (ha : 0 ≤ a) (hpi : a ≤ Real.pi) :
    (2 + a * a / 12 + 7 * (a * a) * (a * a) / 2880) * Real.sin (a / 2) ≤ a := by
  obtain ⟨x, rfl⟩ : ∃ x, a = 2 * x := ⟨a / 2, by ring⟩
  have hx : 0 ≤ x := by linarith
  have hx2 : x ≤ 2 := by linarith [Real.pi_le_four]
  have hsq : 0 ≤ 80 - 7 * x ^ 2 := by nlinarith
  rw [mul_div_cancel_left₀ x two_ne_zero]
  calc (2 + 2 * x * (2 * x) / 12 + 7 * (2 * x * (2 * x)) * (2 * x * (2 * x)) / 2880) * Real.sin x
      ≤ (2 + 2 * x * (2 * x) / 12 + 7 * (2 * x * (2 * x)) * (2 * x * (2 * x)) / 2880)
          * (x - x ^ 3 / 6 + x ^ 5 / 120) :=
        mul_le_mul_of_nonneg_left (sin_le_quintic hx) (by positivity)
    _ = 2 * x - x ^ 7 * (80 - 7 * x ^ 2) / 21600 := by ring
    _ ≤ 2 * x := by
      have : 0 ≤ x ^ 7 * (80 - 7 * x ^ 2) := mul_nonneg (pow_nonneg hx 7) hsq
      linarith

/-- An angle that moves continuously has a rate where its cosine has one and its
sine does not vanish. -/
theorem hasDerivAt_of_cos {a : ℝ → ℝ} {c t : ℝ} (ha : ContinuousAt a t)
    (hsin : Real.sin (a t) ≠ 0) (hcos : HasDerivAt (fun s => Real.cos (a s)) c t) :
    HasDerivAt a ((-Real.sin (a t))⁻¹ * c) t := by
  have hstrict := Real.hasStrictDerivAt_cos (a t)
  have hne : -Real.sin (a t) ≠ 0 := neg_ne_zero.mpr hsin
  have hback : ∀ᶠ s in 𝓝 t, hstrict.localInverse _ _ _ hne (Real.cos (a s)) = a s :=
    ha.eventually (hstrict.hasStrictFDerivAt_equiv hne).eventually_left_inverse
  exact ((hstrict.to_localInverse hne).hasDerivAt.comp t hcos).congr_of_eventuallyEq
    (hback.mono fun s hs => hs.symm)

/-- Half of an angle below half a turn has a positive sine and cosine. -/
theorem sin_cos_half_pos {a : ℝ} (h0 : 0 < a) (hpi : a < Real.pi) :
    0 < Real.sin (a / 2) ∧ 0 < Real.cos (a / 2) :=
  ⟨Real.sin_pos_of_pos_of_lt_pi (by linarith) (by linarith),
    Real.cos_pos_of_mem_Ioo ⟨by linarith, by linarith⟩⟩

end Trigonometry

end Corotation
