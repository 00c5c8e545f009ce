import Mathlib.LinearAlgebra.Matrix.ToLin
import Mathlib.Topology.Algebra.Module.FiniteDimension
import Corotation.Proofs.Space.Rate
/-!
# Vectors and matrices by their components

A vector is a point of the coordinate space (`Vec3.coordinates`) and a matrix a
table over `Fin 3` (`Mat3.entries`). Notions of the coordinate space are read
through these.
-/

open Topology

namespace Corotation

namespace Vec3

variable [SeriesAngle] (p : Fin 3 → ℝ)

/-- The components of a vector. -/
noncomputable def coordinates : Vec3 ℝ ≃ₗ[ℝ] (Fin 3 → ℝ) where
  toFun v := ![v.x, v.y, v.z]
  invFun p := ⟨p 0, p 1, p 2⟩
  map_add' u v := by
    ext i
    fin_cases i <;> rfl
  map_smul' c v := by
    ext i
    fin_cases i <;> rfl
  left_inv _ := rfl
  right_inv p := by
    ext i
    fin_cases i <;> rfl

@[simp] theorem coordinates_symm_x : (coordinates.symm p).x = p 0 := rfl
@[simp] theorem coordinates_symm_y : (coordinates.symm p).y = p 1 := rfl
@[simp] theorem coordinates_symm_z : (coordinates.symm p).z = p 2 := rfl

/-- A moving vector is continuous where each of its components is. -/
theorem continuousAt_coordinates {f : ℝ → Vec3 ℝ} {t : ℝ} :
    ContinuousAt (fun s => coordinates (f s)) t ↔ ContinuousAt (fun s => (f s).x) t
      ∧ ContinuousAt (fun s => (f s).y) t ∧ ContinuousAt (fun s => (f s).z) t := by
  rw [continuousAt_pi, Fin.forall_fin_succ, Fin.forall_fin_two]
  rfl

/-- So is its length there. -/
theorem continuousAt_norm {f : ℝ → Vec3 ℝ} {t : ℝ}
    (h : ContinuousAt (fun s => coordinates (f s)) t) : ContinuousAt (fun s => (f s).norm) t := by
  obtain ⟨hx, hy, hz⟩ := continuousAt_coordinates.mp h
  exact (((hx.mul hx).add (hy.mul hy)).add (hz.mul hz)).sqrt

/-- A moving vector is continuous where it has a rate. -/
theorem HasRate.continuousAt {f : ℝ → Vec3 ℝ} {t : ℝ} {v : Vec3 ℝ} (h : HasRate f v t) :
    ContinuousAt (fun s => coordinates (f s)) t :=
  continuousAt_coordinates.mpr ⟨h.x.continuousAt, h.y.continuousAt, h.z.continuousAt⟩

end Vec3

namespace Mat3

/-- The entries as a matrix over `Fin 3`. -/
def entries (m : Mat3 ℝ) : Matrix (Fin 3) (Fin 3) ℝ :=
  !![m.r1.x, m.r1.y, m.r1.z; m.r2.x, m.r2.y, m.r2.z; m.r3.x, m.r3.y, m.r3.z]

theorem entries_injective : Function.Injective entries := fun m n h => by
  have entry (i j : Fin 3) : m.entries i j = n.entries i j := by rw [h]
  ext
  exacts [entry 0 0, entry 0 1, entry 0 2, entry 1 0, entry 1 1, entry 1 2, entry 2 0, entry 2 1,
    entry 2 2]

variable [SeriesAngle] (m n : Mat3 ℝ) (s : ℝ)

@[simp] theorem entries_zero : (0 : Mat3 ℝ).entries = 0 := by
  ext i j
  fin_cases i <;> fin_cases j <;> rfl

@[simp] theorem entries_one : (1 : Mat3 ℝ).entries = 1 := by
  ext i j
  fin_cases i <;> fin_cases j <;> simp [entries]

@[simp] theorem entries_add : (m + n).entries = m.entries + n.entries := by
  ext i j
  fin_cases i <;> fin_cases j <;> rfl

@[simp] theorem entries_smul : (s • m).entries = s • m.entries := by
  ext i j
  fin_cases i <;> fin_cases j <;> rfl

@[simp] theorem entries_mul : (m * n).entries = m.entries * n.entries := by
  ext i j
  fin_cases i <;> fin_cases j <;>
    simp [entries, Matrix.mul_apply, Fin.sum_univ_three, Vec3.dot_eq, c1_eq, c2_eq, c3_eq]

end Mat3

end Corotation
