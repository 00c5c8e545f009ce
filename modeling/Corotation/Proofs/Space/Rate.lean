import Mathlib.Analysis.SpecialFunctions.Sqrt
import Corotation.Proofs.Space.Rotation
/-!
# Rates — derivatives of vectors and matrices along a motion

A vector that moves with a real parameter has a rate where each of its
components has a derivative, and so has a matrix. The rules of products
hold for every product of the library; a length has the rate of the
vector along its direction, and a direction the rate across it
(`Vec3.HasRate.divide_norm`).
-/

open Topology

namespace Corotation

/-- A moving vector has the rate `v` at the parameter `t`: every component
has its derivative there. -/
structure Vec3.HasRate (f : ℝ → Vec3 ℝ) (v : Vec3 ℝ) (t : ℝ) : Prop where
  /-- The first component. -/
  x : HasDerivAt (fun s => (f s).x) v.x t
  /-- The second component. -/
  y : HasDerivAt (fun s => (f s).y) v.y t
  /-- The third component. -/
  z : HasDerivAt (fun s => (f s).z) v.z t

/-- A moving matrix has the rate `m` at the parameter `t`: every row has its
rate there. -/
structure Mat3.HasRate (f : ℝ → Mat3 ℝ) (m : Mat3 ℝ) (t : ℝ) : Prop where
  /-- The first row. -/
  r1 : Vec3.HasRate (fun s => (f s).r1) m.r1 t
  /-- The second row. -/
  r2 : Vec3.HasRate (fun s => (f s).r2) m.r2 t
  /-- The third row. -/
  r3 : Vec3.HasRate (fun s => (f s).r3) m.r3 t

/-! ## A factor that is only continuous -/

/-- A function that is within `a²` of a value at every small `a ≥ 0`, followed
along a length that passes through zero, is continuous there. -/
theorem continuousAt_of_abs_sub_le {k g : ℝ → ℝ} {c t : ℝ}
    (hk : ∀ a, 0 ≤ a → a ≤ 1 → |k a - c| ≤ a * a) (hg : ContinuousAt g t) (hg0 : g t = 0)
    (hpos : ∀ s, 0 ≤ g s) : k 0 = c ∧ ContinuousAt (fun s => k (g s)) t := by
  have h0 : k 0 = c := by
    have := hk 0 le_rfl zero_le_one
    rw [mul_zero] at this
    exact sub_eq_zero.mp (abs_eq_zero.mp (le_antisymm this (abs_nonneg _)))
  refine ⟨h0, ?_⟩
  have hbound : ∀ᶠ s in 𝓝 t, ‖k (g s) - c‖ ≤ g s * g s := by
    have : ∀ᶠ s in 𝓝 t, g s < 1 := hg.eventually_lt_const (by rw [hg0]; exact one_pos)
    filter_upwards [this] with s hs
    exact hk _ (hpos s) hs.le
  have hsq : Filter.Tendsto (fun s => g s * g s) (𝓝 t) (𝓝 0) := by
    have := hg.tendsto.mul hg.tendsto
    rwa [hg0, mul_zero] at this
  have := squeeze_zero_norm' hbound hsq
  rw [ContinuousAt, hg0, h0]
  exact tendsto_sub_nhds_zero_iff.mp this

/-- The rate of a quotient, by the quotient. -/
theorem hasDerivAt_ratio {f g : ℝ → ℝ} {f' g' t : ℝ} (hf : HasDerivAt f f' t)
    (hg : HasDerivAt g g' t) (h : g t ≠ 0) :
    HasDerivAt (fun s => f s / g s) ((f' - f t / g t * g') / g t) t := by
  refine (hf.div hg h).congr_deriv ?_
  field_simp

/-! ## Vectors -/

namespace Vec3

theorem HasRate.congr_of_eventuallyEq {f g : ℝ → Vec3 ℝ} {v : Vec3 ℝ} {t : ℝ}
    (h : HasRate f v t) (hg : g =ᶠ[𝓝 t] f) : HasRate g v t :=
  ⟨h.x.congr_of_eventuallyEq (hg.mono fun _ hs => congrArg Vec3.x hs),
   h.y.congr_of_eventuallyEq (hg.mono fun _ hs => congrArg Vec3.y hs),
   h.z.congr_of_eventuallyEq (hg.mono fun _ hs => congrArg Vec3.z hs)⟩

theorem HasRate.congr_rate {f : ℝ → Vec3 ℝ} {v w : Vec3 ℝ} {t : ℝ} (h : HasRate f v t)
    (hw : v = w) : HasRate f w t := hw ▸ h

variable [SeriesAngle] {f g : ℝ → Vec3 ℝ} {a b v w : Vec3 ℝ} {k : ℝ → ℝ} {k' t : ℝ}

theorem HasRate.const (a : Vec3 ℝ) (t : ℝ) : HasRate (fun _ => a) 0 t :=
  ⟨hasDerivAt_const t a.x, hasDerivAt_const t a.y, hasDerivAt_const t a.z⟩

theorem HasRate.add (hf : HasRate f v t) (hg : HasRate g w t) :
    HasRate (fun s => f s + g s) (v + w) t :=
  ⟨hf.x.add hg.x, hf.y.add hg.y, hf.z.add hg.z⟩

theorem HasRate.sub (hf : HasRate f v t) (hg : HasRate g w t) :
    HasRate (fun s => f s - g s) (v - w) t :=
  ⟨hf.x.sub hg.x, hf.y.sub hg.y, hf.z.sub hg.z⟩

theorem HasRate.neg (hf : HasRate f v t) : HasRate (fun s => -f s) (-v) t :=
  ⟨hf.x.neg, hf.y.neg, hf.z.neg⟩

/-- A moving multiple of a moving vector. -/
theorem HasRate.smul (hk : HasDerivAt k k' t) (hf : HasRate f v t) :
    HasRate (fun s => k s • f s) (k' • f t + k t • v) t :=
  ⟨hk.mul hf.x, hk.mul hf.y, hk.mul hf.z⟩

/-- A fixed multiple of a moving vector. -/
theorem HasRate.const_smul (hf : HasRate f v t) (c : ℝ) : HasRate (fun s => c • f s) (c • v) t :=
  ⟨hf.x.const_mul c, hf.y.const_mul c, hf.z.const_mul c⟩

/-- A moving multiple of a fixed vector. -/
theorem HasRate.smul_const (hk : HasDerivAt k k' t) (a : Vec3 ℝ) :
    HasRate (fun s => k s • a) (k' • a) t :=
  ⟨hk.mul_const a.x, hk.mul_const a.y, hk.mul_const a.z⟩

/-- A moving multiple of a vector that passes through zero: the factor need
only be continuous there. -/
theorem HasRate.smul_of_zero (hk : ContinuousAt k t) (hf : HasRate f v t) (h0 : f t = 0) :
    HasRate (fun s => k s • f s) (k t • v) t := by
  have component {c : ℝ → ℝ} {c' : ℝ} (hc : HasDerivAt c c' t) (hc0 : c t = 0) :
      HasDerivAt (fun s => k s * c s) (k t * c') t := by
    rw [hasDerivAt_iff_tendsto_slope] at hc ⊢
    refine ((hk.tendsto.mono_left nhdsWithin_le_nhds).mul hc).congr fun s => ?_
    simp only [slope, hc0, vsub_eq_sub, smul_eq_mul]
    ring
  exact ⟨component hf.x (by rw [h0, zero_x]), component hf.y (by rw [h0, zero_y]),
    component hf.z (by rw [h0, zero_z])⟩

/-- The rate of a scalar product. -/
theorem HasRate.dot (hf : HasRate f v t) (hg : HasRate g w t) :
    HasDerivAt (fun s => (f s).dot (g s)) (v.dot (g t) + (f t).dot w) t := by
  refine (((hf.x.mul hg.x).add (hf.y.mul hg.y)).add (hf.z.mul hg.z)).congr_deriv ?_
  simp only [dot_eq]
  ring

/-- The rate of a vector product. -/
theorem HasRate.cross (hf : HasRate f v t) (hg : HasRate g w t) :
    HasRate (fun s => (f s).cross (g s)) (v.cross (g t) + (f t).cross w) t := by
  refine ⟨((hf.y.mul hg.z).sub (hf.z.mul hg.y)).congr_deriv ?_,
    ((hf.z.mul hg.x).sub (hf.x.mul hg.z)).congr_deriv ?_,
    ((hf.x.mul hg.y).sub (hf.y.mul hg.x)).congr_deriv ?_⟩ <;>
  · simp only [add_x, add_y, add_z, cross_x, cross_y, cross_z]
    ring

/-- **The rate of a length** is the rate along the direction. -/
theorem HasRate.norm (hf : HasRate f v t) (h : 0 < (f t).norm) :
    HasDerivAt (fun s => (f s).norm) (((f t).norm⁻¹ • f t).dot v) t := by
  have h0 : (f t).dot (f t) ≠ 0 := by
    rw [← norm_mul_self]
    positivity
  refine ((hf.dot hf).sqrt h0).congr_deriv ?_
  rw [dot_comm v, ← norm_eq, smul_dot]
  field_simp
  ring

/-- **The rate of a direction** is what the rate has across it, over the
length. -/
theorem HasRate.divide_norm (hf : HasRate f v t) (h : 0 < (f t).norm) :
    HasRate (fun s => (f s).norm⁻¹ • f s)
      ((f t).norm⁻¹ • (v - ((f t).norm⁻¹ • f t).dot v • (f t).norm⁻¹ • f t)) t := by
  refine (HasRate.smul ((hf.norm h).inv h.ne') hf).congr_rate ?_
  rw [smul_sub, smul_smul, smul_smul, neg_div, neg_smul, sub_eq_neg_add]
  congr 3
  field_simp

theorem HasRate.continuousAt_norm (hf : HasRate f v t) : ContinuousAt (fun s => (f s).norm) t :=
  (hf.dot hf).continuousAt.sqrt

end Vec3

/-! ## Matrices -/

namespace Mat3

section Entries

variable {f : ℝ → Mat3 ℝ} {m n : Mat3 ℝ} {t : ℝ}

theorem HasRate.congr_rate (h : HasRate f m t) (hn : m = n) : HasRate f n t := hn ▸ h

theorem HasRate.congr_of_eventuallyEq {g : ℝ → Mat3 ℝ} (h : HasRate f m t) (hg : g =ᶠ[𝓝 t] f) :
    HasRate g m t :=
  ⟨h.r1.congr_of_eventuallyEq (hg.mono fun _ hs => congrArg Mat3.r1 hs),
   h.r2.congr_of_eventuallyEq (hg.mono fun _ hs => congrArg Mat3.r2 hs),
   h.r3.congr_of_eventuallyEq (hg.mono fun _ hs => congrArg Mat3.r3 hs)⟩

/-- A moving matrix has one rate. -/
theorem HasRate.unique (hm : HasRate f m t) (hn : HasRate f n t) : m = n := by
  ext
  exacts [hm.r1.x.unique hn.r1.x, hm.r1.y.unique hn.r1.y, hm.r1.z.unique hn.r1.z,
    hm.r2.x.unique hn.r2.x, hm.r2.y.unique hn.r2.y, hm.r2.z.unique hn.r2.z,
    hm.r3.x.unique hn.r3.x, hm.r3.y.unique hn.r3.y, hm.r3.z.unique hn.r3.z]

theorem HasRate.c1 (h : HasRate f m t) : Vec3.HasRate (fun s => (f s).c1) m.c1 t :=
  ⟨h.r1.x, h.r2.x, h.r3.x⟩

theorem HasRate.c2 (h : HasRate f m t) : Vec3.HasRate (fun s => (f s).c2) m.c2 t :=
  ⟨h.r1.y, h.r2.y, h.r3.y⟩

theorem HasRate.c3 (h : HasRate f m t) : Vec3.HasRate (fun s => (f s).c3) m.c3 t :=
  ⟨h.r1.z, h.r2.z, h.r3.z⟩

/-- A matrix moves with its columns. -/
theorem HasRate.of_columns (h1 : Vec3.HasRate (fun s => (f s).c1) m.c1 t)
    (h2 : Vec3.HasRate (fun s => (f s).c2) m.c2 t)
    (h3 : Vec3.HasRate (fun s => (f s).c3) m.c3 t) : HasRate f m t :=
  ⟨⟨h1.x, h2.x, h3.x⟩, ⟨h1.y, h2.y, h3.y⟩, ⟨h1.z, h2.z, h3.z⟩⟩

theorem HasRate.transpose (h : HasRate f m t) :
    HasRate (fun s => (f s).transpose) m.transpose t := ⟨h.c1, h.c2, h.c3⟩

end Entries

variable [SeriesAngle] {f g : ℝ → Mat3 ℝ} {m n : Mat3 ℝ} {p q : ℝ → Vec3 ℝ} {u v w : Vec3 ℝ}
variable {k : ℝ → ℝ} {k' t : ℝ}

theorem HasRate.const (a : Mat3 ℝ) (t : ℝ) : HasRate (fun _ => a) 0 t :=
  ⟨.const a.r1 t, .const a.r2 t, .const a.r3 t⟩

theorem HasRate.add (hf : HasRate f m t) (hg : HasRate g n t) :
    HasRate (fun s => f s + g s) (m + n) t :=
  ⟨hf.r1.add hg.r1, hf.r2.add hg.r2, hf.r3.add hg.r3⟩

/-- A moving multiple of a moving matrix. -/
theorem HasRate.smul (hk : HasDerivAt k k' t) (hf : HasRate f m t) :
    HasRate (fun s => k s • f s) (k' • f t + k t • m) t :=
  ⟨.smul hk hf.r1, .smul hk hf.r2, .smul hk hf.r3⟩

/-- The rate of the image of a moving vector under a moving matrix. -/
theorem HasRate.apply (hf : HasRate f m t) (hp : Vec3.HasRate p v t) :
    Vec3.HasRate (fun s => (f s).apply (p s)) (m.apply (p t) + (f t).apply v) t :=
  ⟨hf.r1.dot hp, hf.r2.dot hp, hf.r3.dot hp⟩

/-- The rate of a product. -/
theorem HasRate.mul (hf : HasRate f m t) (hg : HasRate g n t) :
    HasRate (fun s => f s * g s) (m * g t + f t * n) t :=
  ⟨⟨hf.r1.dot hg.c1, hf.r1.dot hg.c2, hf.r1.dot hg.c3⟩,
   ⟨hf.r2.dot hg.c1, hf.r2.dot hg.c2, hf.r2.dot hg.c3⟩,
   ⟨hf.r3.dot hg.c1, hf.r3.dot hg.c2, hf.r3.dot hg.c3⟩⟩

/-- The rate of the matrix of a vector product. -/
theorem HasRate.skew (hp : Vec3.HasRate p v t) :
    HasRate (fun s => Mat3.skew (p s)) (Mat3.skew v) t where
  r1 := ⟨hasDerivAt_const t 0, hp.z.neg, hp.y⟩
  r2 := ⟨hp.z, hasDerivAt_const t 0, hp.x.neg⟩
  r3 := ⟨hp.y.neg, hp.x, hasDerivAt_const t 0⟩

/-- The rate of the matrix of two vectors. -/
theorem HasRate.outer (hp : Vec3.HasRate p v t) (hq : Vec3.HasRate q w t) :
    HasRate (fun s => Mat3.outer (p s) (q s)) (Mat3.outer v (q t) + Mat3.outer (p t) w) t :=
  ⟨.smul hp.x hq, .smul hp.y hq, .smul hp.z hq⟩

end Mat3

end Corotation
