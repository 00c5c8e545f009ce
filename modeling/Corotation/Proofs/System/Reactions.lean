import Corotation.Proofs.System.Solve
/-!
# What the linear solve answers

A list of fixed components enters the linear solve only through the components that it leaves
free, which are taken in increasing order. So the order of the list and what it repeats do not
count (`solveLinear_congr`). The reactions are what the forces of a displacement leave of the load,
and vanish at the free components.

There is an answer exactly where the block of the free components is regular and its condition
number is allowed, and the answer is the only displacement that is zero at the fixed components
and has no reactions at the free ones (`solveLinear_answers`).
-/

namespace Corotation

variable {n : Nat}

/-! ## Lists with the same free components -/

/-- The free components are in increasing order. -/
theorem freeComponents_pairwise_lt (fixed : List Int) :
    (freeComponents n fixed).Pairwise (· < ·) :=
  (List.pairwise_lt_finRange n).filter _

/-- Lists that have the own numbers of the same components leave the same ones free. -/
theorem freeComponents_congr {fixed fixed' : List Int}
    (h : ∀ k : Fin n, (k.val : Int) ∈ fixed' ↔ (k.val : Int) ∈ fixed) :
    freeComponents n fixed' = freeComponents n fixed :=
  List.filter_congr fun k _ => by simp [h k]

/-- **Such lists have the same outcome**, an answer or a refusal. -/
theorem solveLinear_congr {α : Type} [Scalar α] [Conditioned α] {fixed fixed' : List Int}
    (h : ∀ k : Fin n, (k.val : Int) ∈ fixed' ↔ (k.val : Int) ∈ fixed) (K : Square n α)
    (F : Vector α n) (limit : α) :
    solveLinear K F fixed' limit = solveLinear K F fixed limit := by
  unfold solveLinear
  rw [freeComponents_congr h]

/-! ## The answer -/

variable [SeriesAngle] {K : Square n ℝ} {F : Vector ℝ n} {fixed : List Int} {limit : ℝ}

/-- An answer comes with its reactions and the free components. -/
theorem solveLinear_parts {x : Solution n ℝ} (h : solveLinear K F fixed limit = .ok x) :
    x.reaction = SystemVector.sub (K.apply x.displacement) F
      ∧ x.free = freeComponents n fixed := by
  obtain ⟨-, xs, -, rfl⟩ := solveLinear_eq_ok_iff.mp h
  exact ⟨rfl, rfl⟩

/-- There is an answer exactly where the block of the free components is accepted. -/
theorem exists_solveLinear_iff : (∃ x, solveLinear K F fixed limit = .ok x)
    ↔ checkCondition (freeBlock K fixed) limit = .ok () :=
  ⟨fun ⟨_, h⟩ => (solveLinear_eq_ok_iff.mp h).1, fun h => exists_solveLinear h F⟩

/-- **What the linear solve answers.** It answers exactly if some component is free and their block
is regular with a condition number up to the limit. Then the free components are those whose own
numbers are not listed, in increasing order. The displacement is zero at the fixed components, the
reactions are what its forces leave of the load, zero at the free components, and no other
displacement has these two properties. A list with the own numbers of the same components, in
another order or with repetitions, has the same outcome. -/
theorem solveLinear_answers (K : Square n ℝ) (F : Vector ℝ n) (fixed : List Int) (limit : ℝ) :
    ((∃ x, solveLinear K F fixed limit = .ok x)
        ↔ freeComponents n fixed ≠ [] ∧ IsRegular K fixed
          ∧ conditionNumber (freeBlock K fixed) ≤ limit)
      ∧ (∀ x, solveLinear K F fixed limit = .ok x →
        x.free.Pairwise (· < ·) ∧ (∀ k : Fin n, k ∈ x.free ↔ (k.val : Int) ∉ fixed)
          ∧ (∀ k : Fin n, (k.val : Int) ∈ fixed → x.displacement.get k = 0)
          ∧ (∀ k, x.reaction.get k = (K.apply x.displacement).get k - F.get k)
          ∧ (∀ k ∈ x.free, x.reaction.get k = 0)
          ∧ ∀ d : Vector ℝ n, (∀ k : Fin n, (k.val : Int) ∈ fixed → d.get k = 0) →
            (∀ k ∈ x.free, (K.apply d).get k - F.get k = 0) → d = x.displacement)
      ∧ ∀ fixed' : List Int, (∀ k : Fin n, (k.val : Int) ∈ fixed' ↔ (k.val : Int) ∈ fixed) →
        solveLinear K F fixed' limit = solveLinear K F fixed limit := by
  refine ⟨exists_solveLinear_iff.trans checkCondition_eq_ok_iff, fun x hx => ?_,
    fun fixed' h => solveLinear_congr h K F limit⟩
  obtain ⟨hreaction, hfree⟩ := solveLinear_parts hx
  have hmem (k : Fin n) : k ∈ x.free ↔ (k.val : Int) ∉ fixed := by
    rw [hfree]
    exact mem_freeComponents
  have hbalanced := solveLinear_isBalancedBy hx
  have hget (k : Fin n) : x.reaction.get k = (K.apply x.displacement).get k - F.get k := by
    rw [hreaction, SystemVector.get_sub]
  refine ⟨?_, hmem, hbalanced.held, hget, fun k hk => ?_, fun d hheld hzero => ?_⟩
  · rw [hfree]
    exact freeComponents_pairwise_lt fixed
  · rw [hget, hbalanced.balanced k ((hmem k).mp hk), sub_self]
  · refine solveLinear_unique hx ⟨hheld, fun k hk => ?_⟩
    exact sub_eq_zero.mp (hzero k ((hmem k).mpr hk))

/-! ### Four components -/

omit [SeriesAngle] in
/-- Two components, the second of which is held by the first, are regular. -/
theorem det_pair : (matrixOf [[1, 0], [-1, 1]]).det = 1 := by
  have hmatrix : matrixOf [[1, 0], [-1, 1]] = !![1, 0; -1, 1] := by
    ext i j
    fin_cases i <;> fin_cases j <;> simp [matrixOf]
  rw [hmatrix]
  exact (Matrix.det_fin_two_of 1 0 (-1) 1).trans (by norm_num)

omit [SeriesAngle] in
/-- Four components, the second and the last of which are fixed, listed from the back and one of
them twice. A load on the first and the third displaces both, and pulls at the supports. -/
theorem solveLinear_answers_quadruple :
    letI : SeriesAngle := .exact
    let K : Square 4 ℝ := #v[#v[1, 5, 0, 0], #v[3, 2, 7, 1], #v[-1, 4, 1, 6], #v[0, 8, 2, 1]]
    let F : Vector ℝ 4 := #v[1, 5, 2, 7]
    ∃ x, solveLinear K F [3, 1, 3] 4 = .ok x ∧ x.free = [0, 2]
      ∧ x.displacement = #v[1, 0, 3, 0] ∧ x.reaction.get 1 = 19 ∧ x.reaction.get 2 = 0
      ∧ solveLinear K F [1, 3] 4 = .ok x := by
  let _ : SeriesAngle := .exact
  intro K F
  have hblock : freeBlock K [3, 1, 3] = [[1, 0], [-1, 1]] := rfl
  obtain ⟨hexists, hanswer, hcongr⟩ := solveLinear_answers K F [3, 1, 3] 4
  have hregular : IsRegular K [3, 1, 3] := by
    rw [← det_freeBlock_ne_zero_iff, hblock, det_pair]
    exact one_ne_zero
  have hlimit : conditionNumber (freeBlock K [3, 1, 3]) ≤ 4 := by
    rw [hblock]
    exact conditionNumber_pair
  obtain ⟨x, hx⟩ := hexists.mpr ⟨by decide, hregular, hlimit⟩
  obtain ⟨-, hfree, -, hreaction, hnone, hunique⟩ := hanswer x hx
  have hparts : x.free = [0, 2] := (solveLinear_parts hx).2
  have hforce (k : Fin 4) : (K.apply #v[1, 0, 3, 0]).get k
      = (#v[1, 24, 2, 6] : Vector ℝ 4).get k := by
    rw [get_apply, ← Fin.sum_univ_def, Fin.sum_univ_four]
    fin_cases k <;> simp [K, Vector.get] <;> norm_num
  have hd : #v[1, 0, 3, 0] = x.displacement := by
    have hfixed : ∀ k : Fin 4, (k.val : Int) ∈ [(3 : Int), 1, 3] → k = 1 ∨ k = 3 := by decide
    refine hunique _ (fun k hk => ?_) fun k hk => ?_
    · rcases hfixed k hk with rfl | rfl <;> rfl
    · rw [hparts] at hk
      rw [hforce]
      rcases List.mem_pair.mp hk with rfl | rfl <;> exact sub_self _
  refine ⟨x, hx, hparts, hd.symm, ?_, hnone 2 ((hfree 2).mpr (by decide)), ?_⟩
  · rw [hreaction, ← hd, hforce]
    change (24 : ℝ) - 5 = 19
    norm_num
  · rw [hcongr [1, 3] fun k => by simp [or_comm], hx]

end Corotation
