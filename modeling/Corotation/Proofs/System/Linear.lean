import Corotation.Proofs.System.Increments
import Corotation.Proofs.System.Solve
import Corotation.Supplied.System
/-!
# Models that answer linearly

Where the forces of a model are those that a matrix makes of the displacement, and that matrix is
the tangent, one correction is enough: no residual is left after it (`residual_of_correction`). So
an increment that misses at first converges in its second iteration (`loadStep_of_correction`).
The components at which the residual is held and those that the linear solve leaves free need not
be complementary for that, as long as no component is neither.
-/

namespace Corotation

variable {n : Nat} [SeriesAngle]

namespace SystemVector

/-- The scalar product of a list with itself is not negative. -/
theorem dotList_self_nonneg (xs : List ℝ) : 0 ≤ dotList xs xs := by
  rw [dotList_eq_sum, List.zipWith_self]
  exact List.sum_nonneg (by simpa using fun a _ => mul_self_nonneg a)

/-- It is zero for zeros only. -/
theorem dotList_self_eq_zero_iff (xs : List ℝ) : dotList xs xs = 0 ↔ ∀ x ∈ xs, x = 0 := by
  induction xs with
  | nil => simp
  | cons x xs ih =>
    rw [dotList_cons, List.forall_mem_cons, ← ih,
      add_eq_zero_iff_of_nonneg (mul_self_nonneg x) (dotList_self_nonneg xs), mul_self_eq_zero]

/-- Only the zero vector has no length. -/
theorem norm_le_zero_iff {v : Vector ℝ n} : norm v ≤ 0 ↔ v = zero := by
  change √(dotList v.toList v.toList) ≤ 0 ↔ _
  rw [(Real.sqrt_nonneg _).ge_iff_eq', Real.sqrt_eq_zero (dotList_self_nonneg _),
    dotList_self_eq_zero_iff, toList_eq_map_get, List.forall_mem_map]
  constructor
  · exact fun h => ext_get fun k => by rw [h k (List.mem_finRange k), get_zero]
  · rintro rfl k -
    exact get_zero k

/-- Nothing added on the right. -/
theorem add_zero_eq (v : Vector ℝ n) : add v zero = v :=
  ext_get fun k => by
    rw [get_add, get_zero]
    exact add_zero _

/-- Nothing added on the left. -/
theorem zero_add_eq (v : Vector ℝ n) : add zero v = v :=
  ext_get fun k => by
    rw [get_add, get_zero]
    exact zero_add _

end SystemVector

/-- A matrix makes nothing of the zero vector. -/
theorem get_apply_zero (K : Square n ℝ) (k : Fin n) : (K.apply SystemVector.zero).get k = 0 := by
  have hterm (j : Fin n) : (K.get k).get j * (SystemVector.zero : Vector ℝ n).get j = 0 := by
    rw [SystemVector.get_zero]
    exact mul_zero _
  simp only [get_apply, hterm, List.map_const', List.sum_replicate, smul_zero]

/-- A matrix makes of a sum what it makes of the parts, added. -/
theorem get_apply_add (K : Square n ℝ) (d e : Vector ℝ n) (k : Fin n) :
    (K.apply (SystemVector.add d e)).get k = (K.apply d).get k + (K.apply e).get k := by
  have hterm (j : Fin n) : (K.get k).get j * (SystemVector.add d e).get j
      = (K.get k).get j * d.get j + (K.get k).get j * e.get j := by
    rw [SystemVector.get_add]
    exact mul_add _ _ _
  simp only [get_apply, hterm, List.sum_map_add]

namespace Newton

variable {σ : Type} {m : Model σ n ℝ} {settings : Settings ℝ} {F : Vector ℝ n} {fixed : List Int}
variable {step : Nat} {inc : Increment n ℝ} {K : Square n ℝ} {d : Vector ℝ n} {s : σ}
variable {x : Solution n ℝ}

/-- The model answers at a displacement as a matrix does. -/
def AnswersBy (m : Model σ n ℝ) (K : Square n ℝ) (d : Vector ℝ n) (s : σ) : Prop :=
  (m.respond d s).result = .ok ⟨K, K.apply d⟩

/-- The cubic model without cubes answers as its matrix does. -/
theorem cubicModel_answersBy (K : Square n ℝ) (hooks : Bool) (d : Vector ℝ n) (s : Unit) :
    AnswersBy (Supplied.cubicModel K SystemVector.zero hooks) K d s := by
  have hnone (f : ℝ → ℝ → ℝ) (hf : ∀ x, f 0 x = 0) (k : Fin n) :
      (Vector.zipWith f SystemVector.zero d).get k = 0 := by
    have hget : (Vector.zipWith f SystemVector.zero d).get k
        = f (SystemVector.zero.get k) (d.get k) := Vector.getElem_zipWith _
    rw [hget, SystemVector.get_zero]
    exact hf _
  refine congrArg Except.ok (Response.ext ?_ ?_)
  · refine SystemVector.ext_get fun i => SystemVector.ext_get fun j => ?_
    refine (congrArg (Vector.get · j) (Vector.getElem_ofFn i.isLt)).trans
      ((Vector.getElem_ofFn j.isLt).trans ?_)
    change (if i = j then _ else _) = _
    split
    · refine (congrArg ((K.get i).get j + ·) (hnone _ (fun x => ?_) i)).trans (add_zero _)
      exact (congrArg (· * (x * x)) (mul_zero _)).trans (zero_mul _)
    · rfl
  · refine SystemVector.ext_get fun k => (SystemVector.get_add _ _ k).trans ?_
    exact (congrArg ((K.apply d).get k + ·) (hnone _ (fun x => zero_mul (x * x * x)) k)).trans
      (add_zero _)

/-- **After a correction no residual is left.** -/
theorem residual_of_correction (hinc : increment settings F fixed step = .ok inc)
    (hx : inc.correction ⟨K, K.apply d⟩ = .ok x) :
    inc.residual ⟨K, K.apply (SystemVector.add d x.displacement)⟩ = SystemVector.zero := by
  refine SystemVector.ext_get fun k => ?_
  rw [Increment.get_residual, SystemVector.get_zero]
  by_cases hk : k ∈ inc.held
  · exact if_pos hk
  · -- what is not held is in the linear solve, which has balanced the residual there
    have hbalanced := (solveLinear_isBalancedBy hx).balanced k (notMem_fixed_of_notMem_held hinc hk)
    rw [Increment.get_residual, if_neg hk] at hbalanced
    rw [if_neg hk, get_apply_add, hbalanced]
    exact sub_eq_zero.mpr (add_sub_cancel _ _).symm

/-- A tolerance that is not negative counts a zero residual as converged. -/
theorem tolerance_nonneg (hinc : increment settings F fixed step = .ok inc)
    (htolerance : 0 ≤ settings.tolerance) : 0 ≤ inc.tolerance := by
  obtain ⟨held, -, rfl⟩ := increment_eq_ok_iff.mp hinc
  refine mul_nonneg htolerance ?_
  rw [Scalar.larger_real]
  exact le_max_of_le_right zero_le_one

/-- So the increment has converged there. -/
theorem balances_of_correction (hinc : increment settings F fixed step = .ok inc)
    (htolerance : 0 ≤ settings.tolerance) (hx : inc.correction ⟨K, K.apply d⟩ = .ok x)
    (hanswers : AnswersBy m K (SystemVector.add d x.displacement) s) :
    Balances m inc (SystemVector.add d x.displacement) s := by
  refine ⟨_, hanswers, Scalar.le_real.mpr ?_⟩
  rw [residual_of_correction hinc hx]
  exact (SystemVector.norm_le_zero_iff.mpr rfl).trans (tolerance_nonneg hinc htolerance)

/-- **An increment that misses at first** is accepted after one correction, unless to commit it
fails. -/
theorem loadStep_of_correction (hinc : increment settings F fixed step = .ok inc)
    (htolerance : 0 ≤ settings.tolerance) (hiterations : 2 ≤ settings.iterations)
    (hmisses : Misses m inc d s ⟨K, K.apply d⟩) (hx : inc.correction ⟨K, K.apply d⟩ = .ok x)
    {d' : Vector ℝ n} {s' : σ} (hd' : SystemVector.add d x.displacement = d')
    (hs' : (m.respond d s).state = s') (hanswers : AnswersBy m K d' s')
    {done : Part σ n ℝ (Except (Failure ℝ) Unit)}
    (hdone : call m.commit? .committed (m.respond d' s').state = done)
    (hok : done.ending = .ok ()) :
    loadStep m settings F fixed step d s = ⟨done.state,
      evaluation m d s ++ evaluation m d' s' ++ done.events
        ++ [.remarked (.converged step settings.steps 2)], .ok (d', 2)⟩ := by
  subst hd' hs'
  obtain ⟨budget, hbudget⟩ : ∃ budget, settings.iterations.toNat = budget + 1 + 1 :=
    ⟨settings.iterations.toNat - 2, by omega⟩
  refine loadStep_of_converged hinc ?_ hdone hok
  rw [hbudget, iterate_of_misses hmisses, hx]
  simp only [iterate_of_balances (balances_of_correction hinc htolerance hx hanswers)]

end Newton

end Corotation
