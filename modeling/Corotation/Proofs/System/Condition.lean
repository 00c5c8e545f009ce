import Mathlib.Analysis.CStarAlgebra.Matrix
import Mathlib.LinearAlgebra.Matrix.ToLinearEquiv
import Corotation.Proofs.System.Elimination
import Corotation.System.Condition
/-!
# Condition numbers over the real numbers

The quotient of the extreme singular values of a matrix is the norm of the matrix times that of
its inverse, as operators between Euclidean spaces. A singular matrix has no inverse: its smallest
singular value is zero.
-/

namespace Corotation

open scoped Matrix.Norms.L2Operator

/-- The square matrix with the given rows. Entries that a row does not have are zero. -/
noncomputable def matrixOf (rows : List (List ℝ)) :
    Matrix (Fin rows.length) (Fin rows.length) ℝ :=
  Matrix.of fun i j => (rows.get i).getD j 0

/-- The quotient of the extreme singular values of a regular matrix. -/
noncomputable def conditionNumber (rows : List (List ℝ)) : ℝ :=
  ‖matrixOf rows‖ * ‖(matrixOf rows)⁻¹‖

/-- Real matrices have condition numbers. -/
noncomputable instance instConditionedReal : Conditioned ℝ where
  condition rows :=
    if rows = [] then .undefined
    else if (matrixOf rows).det = 0 then .infinite
    else .finite (conditionNumber rows)

/-- A matrix without rows has none, and that of a singular matrix is infinite. -/
theorem condition_eq (rows : List (List ℝ)) : Conditioned.condition rows
    = if rows = [] then .undefined
      else if (matrixOf rows).det = 0 then .infinite
      else .finite (conditionNumber rows) := rfl

variable [SeriesAngle]

open SystemVector (dotList)

omit [SeriesAngle] in
/-- A list is a function on its positions. -/
theorem eq_ofFn_getD {k : Nat} {ys : List ℝ} (h : ys.length = k) :
    ys = List.ofFn fun i : Fin k => ys.getD i 0 := by
  refine List.ext_getElem (by simp [h]) fun i hi _ => ?_
  rw [List.getElem_ofFn, List.getD_eq_getElem?_getD, List.getElem?_eq_getElem hi]
  rfl

/-- A row of a matrix applied to unknowns. -/
theorem matrixOf_mulVec {rows : List (List ℝ)} (hrows : ∀ row ∈ rows, row.length = rows.length)
    (v : Fin rows.length → ℝ) (i : Fin rows.length) :
    (matrixOf rows).mulVec v i = dotList (rows.get i) (List.ofFn v) := by
  have hrow : (rows.get i).length = rows.length := hrows _ (rows.get_mem i)
  have hzip : List.zipWith (fun x y => x * y) (rows.get i) (List.ofFn v)
      = List.ofFn fun j : Fin rows.length => (rows.get i).getD j 0 * v j := by
    refine List.ext_getElem ?_ fun j hj _ => ?_
    · rw [List.length_zipWith, List.length_ofFn, List.length_ofFn, hrow, min_self]
    · have hj' : j < (rows.get i).length := by
        rw [List.length_zipWith] at hj
        omega
      rw [List.getElem_zipWith, List.getElem_ofFn, List.getElem_ofFn,
        List.getD_eq_getElem?_getD, List.getElem?_eq_getElem hj']
      rfl
  rw [dotList_eq_sum, hzip, List.sum_ofFn]
  rfl

/-- **A matrix is regular** if only zeros are orthogonal to all of its rows. -/
theorem det_matrixOf_ne_zero_iff {rows : List (List ℝ)}
    (hrows : ∀ row ∈ rows, row.length = rows.length) :
    (matrixOf rows).det ≠ 0 ↔ ∀ ys : List ℝ, ys.length = rows.length →
      (∀ row ∈ rows, dotList row ys = 0) → ∀ y ∈ ys, y = 0 := by
  have hkernel (v : Fin rows.length → ℝ) :
      (matrixOf rows).mulVec v = 0 ↔ ∀ row ∈ rows, dotList row (List.ofFn v) = 0 := by
    rw [List.forall_mem_iff_get, funext_iff]
    exact forall_congr' fun i => by rw [matrixOf_mulVec hrows]; rfl
  rw [ne_eq, ← Matrix.exists_mulVec_eq_zero_iff, not_exists]
  constructor
  · intro h ys hys horthogonal y hy
    rw [eq_ofFn_getD hys] at horthogonal hy
    by_contra hne
    refine h _ ⟨fun hzero => hne ?_, (hkernel _).mpr horthogonal⟩
    obtain ⟨i, rfl⟩ := List.mem_ofFn.mp hy
    exact congrFun hzero i
  · rintro h v ⟨hne, hzero⟩
    refine hne (funext fun i => ?_)
    exact h (List.ofFn v) (List.length_ofFn) ((hkernel v).mp hzero) _ (List.mem_ofFn.mpr ⟨i, rfl⟩)

omit [SeriesAngle] in
/-- The unit matrix of one row is regular, and its condition number is one. -/
theorem condition_one : Conditioned.condition [[(1 : ℝ)]] = .finite 1 := by
  have hone : matrixOf [[1]] = (1 : Matrix (Fin 1) (Fin 1) ℝ) := by
    ext i j
    fin_cases i
    fin_cases j
    rfl
  have hnumber : conditionNumber [[1]] = 1 := by
    rw [conditionNumber, hone, inv_one]
    change ‖(1 : Matrix (Fin 1) (Fin 1) ℝ)‖ * ‖(1 : Matrix (Fin 1) (Fin 1) ℝ)‖ = 1
    rw [norm_one, mul_one]
  rw [condition_eq, if_neg (List.cons_ne_nil _ _), hone, Matrix.det_one, if_neg one_ne_zero,
    hnumber]

omit [SeriesAngle] in
/-- Two components, the second of which is held by the first, are well conditioned. -/
theorem conditionNumber_pair : conditionNumber [[1, 0], [-1, 1]] ≤ 4 := by
  let N : Matrix (Fin 2) (Fin 2) ℝ := Matrix.single 1 0 1
  have hmatrix : matrixOf [[1, 0], [-1, 1]] = 1 - N := by
    ext i j
    fin_cases i <;> fin_cases j <;> simp [matrixOf, N]
  have hinverse : (1 - N)⁻¹ = 1 + N := by
    refine Matrix.inv_eq_right_inv ?_
    ext i j
    fin_cases i <;> fin_cases j <;> simp [N, Matrix.mul_apply, Matrix.one_apply]
  have hnorm : ‖N‖ ≤ 1 := by
    have hdiagonal : N.conjTranspose * N = Matrix.diagonal ![1, 0] := by
      ext i j
      fin_cases i <;> fin_cases j <;> simp [N, Matrix.mul_apply]
    have hentries : ‖(![1, 0] : Fin 2 → ℝ)‖ ≤ 1 :=
      (pi_norm_le_iff_of_nonneg zero_le_one).mpr fun i => by fin_cases i <;> simp
    have hsquare : ‖N‖ * ‖N‖ ≤ 1 := by
      rwa [← Matrix.l2_opNorm_conjTranspose_mul_self, hdiagonal, Matrix.l2_opNorm_diagonal]
    nlinarith [norm_nonneg N]
  have hone : ‖(1 : Matrix (Fin 2) (Fin 2) ℝ)‖ = 1 := norm_one
  have hsub : ‖1 - N‖ ≤ 2 := (norm_sub_le _ _).trans (by linarith)
  have hadd : ‖1 + N‖ ≤ 2 := (norm_add_le _ _).trans (by linarith)
  calc conditionNumber [[1, 0], [-1, 1]]
      = ‖1 - N‖ * ‖1 + N‖ := by rw [conditionNumber, hmatrix]; exact congrArg (_ * ‖·‖) hinverse
    _ ≤ 2 * 2 := mul_le_mul hsub hadd (norm_nonneg _) two_pos.le
    _ = 4 := by norm_num

end Corotation
