import Mathlib.Analysis.Calculus.FDeriv.Pi
import Mathlib.Analysis.Calculus.Deriv.Comp
import Mathlib.Analysis.Calculus.FDeriv.Mul
import Corotation.Proofs.Space.Coordinates
/-!
# Derivatives of functions of a vector

A function of a vector has a gradient, and a map of vectors a matrix for its
derivative, where the function of the coordinates has the derivative that they
stand for. A map has the derivative whose rows are the gradients of its
components (`Vec3.hasDerivative_iff`). From the rules for gradients follow those
for the products of maps.
-/

open Topology

namespace Corotation

namespace Vec3

variable [SeriesAngle]

/-- The scalar product with a vector, on coordinates. -/
noncomputable def along (g : Vec3 ℝ) : (Fin 3 → ℝ) →L[ℝ] ℝ :=
  LinearMap.toContinuousLinearMap
    { toFun := fun p => g.dot (coordinates.symm p)
      map_add' := fun p q => by rw [map_add, dot_add]
      map_smul' := fun s p => by rw [map_smul, dot_smul]; rfl }

theorem along_apply (g : Vec3 ℝ) (p : Fin 3 → ℝ) : along g p = g.dot (coordinates.symm p) := rfl

/-- The function `k` has the gradient `g` at `v`. -/
def HasGradient (k : Vec3 ℝ → ℝ) (g v : Vec3 ℝ) : Prop :=
  HasFDerivAt (fun p => k (coordinates.symm p)) (along g) (coordinates v)

/-- The map `F` has the derivative `J` at `v`. -/
def HasDerivative (F : Vec3 ℝ → Vec3 ℝ) (J : Mat3 ℝ) (v : Vec3 ℝ) : Prop :=
  HasFDerivAt (fun p => coordinates (F (coordinates.symm p)))
    (LinearMap.toContinuousLinearMap J.entries.mulVecLin) (coordinates v)

variable {k l : Vec3 ℝ → ℝ} {g h v : Vec3 ℝ} {F G : Vec3 ℝ → Vec3 ℝ} {J K : Mat3 ℝ}

/-! ## Gradients -/

namespace HasGradient

theorem congr_gradient (hk : HasGradient k g v) (hg : g = h) : HasGradient k h v := hg ▸ hk

/-- A gradient is a matter of the vectors nearby. -/
theorem congr_of_eventually (hk : HasGradient k g v)
    (hl : ∀ᶠ p in 𝓝 (coordinates v), l (coordinates.symm p) = k (coordinates.symm p)) :
    HasGradient l g v :=
  HasFDerivAt.congr_of_eventuallyEq hk hl

theorem x (v : Vec3 ℝ) : HasGradient (fun u => u.x) ⟨1, 0, 0⟩ v := by
  refine (hasFDerivAt_apply 0 (coordinates v)).congr_fderiv (ContinuousLinearMap.ext fun p => ?_)
  simp [along_apply, dot_eq]

theorem y (v : Vec3 ℝ) : HasGradient (fun u => u.y) ⟨0, 1, 0⟩ v := by
  refine (hasFDerivAt_apply 1 (coordinates v)).congr_fderiv (ContinuousLinearMap.ext fun p => ?_)
  simp [along_apply, dot_eq]

theorem z (v : Vec3 ℝ) : HasGradient (fun u => u.z) ⟨0, 0, 1⟩ v := by
  refine (hasFDerivAt_apply 2 (coordinates v)).congr_fderiv (ContinuousLinearMap.ext fun p => ?_)
  simp [along_apply, dot_eq]

theorem const (c : ℝ) (v : Vec3 ℝ) : HasGradient (fun _ => c) 0 v := by
  refine (hasFDerivAt_const c (coordinates v)).congr_fderiv (ContinuousLinearMap.ext fun p => ?_)
  simp [along_apply]

theorem add (hk : HasGradient k g v) (hl : HasGradient l h v) :
    HasGradient (fun u => k u + l u) (g + h) v := by
  refine (HasFDerivAt.add hk hl).congr_fderiv ?_
  ext p
  simp [along_apply]

theorem sub (hk : HasGradient k g v) (hl : HasGradient l h v) :
    HasGradient (fun u => k u - l u) (g - h) v := by
  refine (HasFDerivAt.sub hk hl).congr_fderiv ?_
  ext p
  simp [along_apply]

theorem mul (hk : HasGradient k g v) (hl : HasGradient l h v) :
    HasGradient (fun u => k u * l u) (l v • g + k v • h) v := by
  refine (HasFDerivAt.mul hk hl).congr_fderiv ?_
  ext p
  simp [along_apply]
  ring

/-- A function of a function. -/
theorem comp {r : ℝ → ℝ} {r' : ℝ} (hk : HasGradient k g v) (hr : HasDerivAt r r' (k v)) :
    HasGradient (fun u => r (k u)) (r' • g) v := by
  refine (HasDerivAt.comp_hasFDerivAt (coordinates v) hr hk).congr_fderiv ?_
  ext p
  simp [along_apply]

end HasGradient

/-- **A map has the derivative whose rows are the gradients of its components.** -/
theorem hasDerivative_iff : HasDerivative F J v ↔
    HasGradient (fun u => (F u).x) J.r1 v ∧ HasGradient (fun u => (F u).y) J.r2 v
      ∧ HasGradient (fun u => (F u).z) J.r3 v := by
  have row (i : Fin 3) {g : Vec3 ℝ} (hg : ∀ p, along g p = J.entries.mulVec p i) :
      (ContinuousLinearMap.proj i).comp (LinearMap.toContinuousLinearMap J.entries.mulVecLin)
        = along g :=
    ContinuousLinearMap.ext fun p => (hg p).symm
  have entry (p : Fin 3 → ℝ) :
      along J.r1 p = J.entries.mulVec p 0 ∧ along J.r2 p = J.entries.mulVec p 1
        ∧ along J.r3 p = J.entries.mulVec p 2 := by
    simp [along_apply, Mat3.entries, Matrix.mulVec, dotProduct, Fin.sum_univ_three, dot_eq]
  rw [HasDerivative, hasFDerivAt_pi', Fin.forall_fin_succ, Fin.forall_fin_two,
    row 0 fun p => (entry p).1, row (Fin.succ 0) fun p => (entry p).2.1,
    row (Fin.succ 1) fun p => (entry p).2.2]
  rfl

namespace HasDerivative

theorem congr_derivative (hF : HasDerivative F J v) (hJ : J = K) : HasDerivative F K v := hJ ▸ hF

protected theorem id (v : Vec3 ℝ) : HasDerivative (fun u => u) 1 v :=
  hasDerivative_iff.mpr ⟨.x v, .y v, .z v⟩

theorem const (c v : Vec3 ℝ) : HasDerivative (fun _ => c) 0 v :=
  hasDerivative_iff.mpr ⟨.const c.x v, .const c.y v, .const c.z v⟩

theorem add (hF : HasDerivative F J v) (hG : HasDerivative G K v) :
    HasDerivative (fun u => F u + G u) (J + K) v := by
  obtain ⟨hFx, hFy, hFz⟩ := hasDerivative_iff.mp hF
  obtain ⟨hGx, hGy, hGz⟩ := hasDerivative_iff.mp hG
  exact hasDerivative_iff.mpr ⟨hFx.add hGx, hFy.add hGy, hFz.add hGz⟩

/-- A multiple that depends on the vector. -/
theorem smul (hk : HasGradient k g v) (hF : HasDerivative F J v) :
    HasDerivative (fun u => k u • F u) (Mat3.outer (F v) g + k v • J) v := by
  obtain ⟨hFx, hFy, hFz⟩ := hasDerivative_iff.mp hF
  exact hasDerivative_iff.mpr ⟨hk.mul hFx, hk.mul hFy, hk.mul hFz⟩

theorem const_smul (hF : HasDerivative F J v) (c : ℝ) :
    HasDerivative (fun u => c • F u) (c • J) v := by
  refine (smul (.const c v) hF).congr_derivative (Mat3.ext_apply fun u => ?_)
  simp

/-- The vector product of two maps. -/
theorem cross (hF : HasDerivative F J v) (hG : HasDerivative G K v) :
    HasDerivative (fun u => (F u).cross (G u))
      (Mat3.skew (F v) * K - Mat3.skew (G v) * J) v := by
  obtain ⟨hFx, hFy, hFz⟩ := hasDerivative_iff.mp hF
  obtain ⟨hGx, hGy, hGz⟩ := hasDerivative_iff.mp hG
  refine hasDerivative_iff.mpr ⟨((hFy.mul hGz).sub (hFz.mul hGy)).congr_gradient ?_,
    ((hFz.mul hGx).sub (hFx.mul hGz)).congr_gradient ?_,
    ((hFx.mul hGy).sub (hFy.mul hGx)).congr_gradient ?_⟩ <;>
  · ext <;> simp [Mat3.skew_eq, dot_eq, Mat3.c1_eq, Mat3.c2_eq, Mat3.c3_eq] <;> ring

end HasDerivative

theorem continuous_norm : Continuous fun p : Fin 3 → ℝ => (coordinates.symm p).norm := by
  refine Real.continuous_sqrt.comp ?_
  simp only [dot_eq, coordinates_symm_x, coordinates_symm_y, coordinates_symm_z]
  fun_prop

/-- The square of the length has twice the vector for its gradient. -/
theorem hasGradient_dot_self (v : Vec3 ℝ) : HasGradient (fun u => u.dot u) ((2 : ℝ) • v) v := by
  refine ((((HasGradient.x v).mul (.x v)).add ((HasGradient.y v).mul (.y v))).add
    ((HasGradient.z v).mul (.z v))).congr_gradient ?_
  ext <;> simp <;> ring

/-- The length has the direction for its gradient. -/
theorem hasGradient_norm (h : v ≠ 0) : HasGradient (fun u => u.norm) (v.norm⁻¹ • v) v := by
  have hpos := norm_pos h
  have hdot : v.dot v ≠ 0 := fun h0 => h (dot_self_eq_zero.mp h0)
  refine ((hasGradient_dot_self v).comp (Real.hasDerivAt_sqrt hdot)).congr_gradient ?_
  rw [smul_smul, ← norm_eq]
  congr 1
  field_simp

end Vec3

end Corotation
