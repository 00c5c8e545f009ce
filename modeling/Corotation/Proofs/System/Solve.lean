import Corotation.Proofs.System.Partition
import Corotation.Proofs.System.Condition
/-!
# The linear solve over the real numbers

A displacement that is zero at the fixed components is what it is at the free ones, and so is what
a matrix makes of it (`apply_free`). So the solve with the block of the free components answers
with the one displacement that is zero at the fixed components and balances the load at the free
ones (`solveLinear_isBalancedBy`, `solveLinear_unique`). It has an answer if the block is regular
and its condition number is not above the limit (`exists_solveLinear`).
-/

namespace Corotation

open SystemVector (dotList)

variable {n : Nat}

/-! ## Deposits at distinct components -/

/-- Nothing is deposited elsewhere. -/
theorem deposit_of_notMem {map : List (Fin n)} (entries : List ℝ) {k : Fin n} (hk : k ∉ map) :
    deposit map entries k = 0 := by
  unfold deposit
  refine List.sum_eq_zero fun x hx => ?_
  obtain ⟨e, he, rfl⟩ := List.mem_map.mp hx
  refine if_neg fun heq => hk ?_
  rw [← heq]
  exact (List.of_mem_zip he).1

/-- Distinct components each get their entry. -/
theorem map_deposit {map : List (Fin n)} (hnodup : map.Nodup) {entries : List ℝ}
    (hlength : entries.length = map.length) : map.map (deposit map entries) = entries := by
  induction map generalizing entries with
  | nil => exact (List.length_eq_zero_iff.mp hlength).symm
  | cons k map ih =>
    obtain ⟨x, entries, rfl⟩ := List.exists_cons_of_length_eq_add_one hlength
    obtain ⟨hk, hnodup⟩ := List.nodup_cons.mp hnodup
    have hcons (j : Fin n) : deposit (k :: map) (x :: entries) j
        = (if k = j then x else 0) + deposit map entries j := rfl
    rw [List.map_cons, hcons, if_pos rfl, deposit_of_notMem entries hk, add_zero]
    refine congrArg (x :: ·) ?_
    have hrest : map.map (deposit (k :: map) (x :: entries)) = map.map (deposit map entries) := by
      refine List.map_congr_left fun j hj => ?_
      have hne : k ≠ j := fun heq => hk (heq ▸ hj)
      rw [hcons, if_neg hne, zero_add]
    rw [hrest]
    exact ih hnodup (Nat.succ.inj hlength)

/-! ## Free components -/

/-- The free components are distinct. -/
theorem freeComponents_nodup (fixed : List Int) : (freeComponents n fixed).Nodup :=
  (List.nodup_finRange n).filter _

/-- Terms that are zero can be left out of a sum. -/
theorem sum_map_filter {β : Type} {p : β → Bool} {f : β → ℝ} (l : List β)
    (h : ∀ b, p b = false → f b = 0) : ((l.filter p).map f).sum = (l.map f).sum := by
  induction l with
  | nil => rfl
  | cons b l ih =>
    cases hb : p b with
    | true => rw [List.filter_cons_of_pos hb, List.map_cons, List.map_cons, List.sum_cons,
        List.sum_cons, ih]
    | false => rw [List.filter_cons_of_neg (by simp [hb]), List.map_cons, List.sum_cons, h b hb,
        zero_add, ih]

variable [SeriesAngle] {K : Square n ℝ} {F : Vector ℝ n} {fixed : List Int} {limit : ℝ}

/-- The scalar product of two families is a sum. -/
theorem dotList_map {β : Type} (f g : β → ℝ) (l : List β) :
    dotList (l.map f) (l.map g) = (l.map fun b => f b * g b).sum := by
  rw [dotList_eq_sum, List.zipWith_map, List.zipWith_self]

omit [SeriesAngle] in
/-- The components of a vector in order. -/
theorem toList_eq_map_get (v : Vector ℝ n) : v.toList = (List.finRange n).map v.get := by
  refine List.ext_getElem (by simp) fun i hi _ => ?_
  rw [List.getElem_map, List.getElem_finRange]
  rfl

/-- An entry of a matrix applied to a vector is a sum. -/
theorem get_apply (K : Square n ℝ) (d : Vector ℝ n) (k : Fin n) :
    (K.apply d).get k = ((List.finRange n).map fun j => (K.get k).get j * d.get j).sum := by
  have hrow : (K.apply d).get k = SystemVector.dot (K.get k) d := Vector.getElem_map _ _
  rw [hrow, SystemVector.dot, toList_eq_map_get, toList_eq_map_get, dotList_map]

/-- **A displacement that is zero at the fixed components** is seen by a matrix at the free ones. -/
theorem apply_free {d : Vector ℝ n} (hd : ∀ k : Fin n, (k.val : Int) ∈ fixed → d.get k = 0)
    (k : Fin n) : (K.apply d).get k
      = dotList ((freeComponents n fixed).map (K.get k).get)
        ((freeComponents n fixed).map d.get) := by
  rw [get_apply, dotList_map, freeComponents, sum_map_filter]
  intro j hj
  rw [hd j (by simpa using hj), mul_zero]

/-! ## The displacement of the free components -/

/-- The displacement with the given entries at the free components, zero at the others. -/
noncomputable def spread (fixed : List Int) (xs : List ℝ) : Vector ℝ n :=
  SystemVector.scatter SystemVector.zero (freeComponents n fixed) xs

variable {xs : List ℝ}

theorem spread_get_fixed {k : Fin n} (hk : (k.val : Int) ∈ fixed) :
    (spread fixed xs : Vector ℝ n).get k = 0 := by
  rw [spread, SystemVector.get_scatter_of_notMem _ _ fun hfree => mem_freeComponents.mp hfree hk,
    SystemVector.get_zero]

theorem map_spread (hlength : xs.length = (freeComponents n fixed).length) :
    (freeComponents n fixed).map (spread fixed xs : Vector ℝ n).get = xs := by
  calc (freeComponents n fixed).map (spread fixed xs : Vector ℝ n).get
      = (freeComponents n fixed).map (deposit (freeComponents n fixed) xs) := by
        refine List.map_congr_left fun k _ => ?_
        rw [spread, SystemVector.get_scatter, SystemVector.get_zero]
        exact zero_add _
    _ = xs := map_deposit (freeComponents_nodup fixed) hlength

/-! ## The solve -/

/-- **The displacement that a linear solve is asked for**: zero at the fixed components, and in
balance with the load at the free ones. -/
structure IsBalancedBy (K : Square n ℝ) (F : Vector ℝ n) (fixed : List Int) (d : Vector ℝ n) :
    Prop where
  held : ∀ k : Fin n, (k.val : Int) ∈ fixed → d.get k = 0
  balanced : ∀ k : Fin n, (k.val : Int) ∉ fixed → (K.apply d).get k = F.get k

/-- The equations of the free components. -/
def freeSystem (K : Square n ℝ) (F : Vector ℝ n) (fixed : List Int) : List (List ℝ × ℝ) :=
  (freeComponents n fixed).map fun k => ((freeComponents n fixed).map (K.get k).get, F.get k)

omit [SeriesAngle] in
/-- They are square. -/
theorem freeSystem_rows {e : List ℝ × ℝ} (he : e ∈ freeSystem K F fixed) :
    e.1.length = (freeComponents n fixed).length := by
  obtain ⟨k, -, rfl⟩ := List.mem_map.mp he
  exact List.length_map _

/-- **The equations of the free components** are those of a displacement that is zero at the fixed
ones. -/
theorem isBalancedBy_iff {d : Vector ℝ n} (hd : ∀ k : Fin n, (k.val : Int) ∈ fixed → d.get k = 0) :
    IsBalancedBy K F fixed d
      ↔ ∀ e ∈ freeSystem K F fixed, dotList e.1 ((freeComponents n fixed).map d.get) = e.2 := by
  constructor
  · rintro h e he
    obtain ⟨k, hk, rfl⟩ := List.mem_map.mp he
    rw [← apply_free hd]
    exact h.balanced k (mem_freeComponents.mp hk)
  · refine fun h => ⟨hd, fun k hk => ?_⟩
    rw [apply_free hd]
    exact h _ (List.mem_map_of_mem (mem_freeComponents.mpr hk))

/-- The block of the free components. -/
def freeBlock (K : Square n ℝ) (fixed : List Int) : List (List ℝ) :=
  K.block (freeComponents n fixed) (freeComponents n fixed)

/-- **The linear solve** checks the condition of the block of the free components, and solves
their equations. -/
theorem solveLinear_eq_ok_iff {x : Solution n ℝ} : solveLinear K F fixed limit = .ok x
    ↔ checkCondition (freeBlock K fixed) limit = .ok ()
      ∧ ∃ xs, solveEquations (freeComponents n fixed).length (freeSystem K F fixed) = some xs
        ∧ x = ⟨spread fixed xs, SystemVector.sub (K.apply (spread fixed xs)) F,
          freeComponents n fixed⟩ := by
  have hsystem : (freeBlock K fixed).zip ((freeComponents n fixed).map F.get)
      = freeSystem K F fixed := List.zip_map'
  unfold solveLinear
  simp only
  rw [← freeBlock, hsystem]
  cases checkCondition (freeBlock K fixed) limit with
  | error e => exact ⟨nofun, nofun⟩
  | ok _ =>
    cases solveEquations (freeComponents n fixed).length (freeSystem K F fixed) with
    | none => exact ⟨nofun, by rintro ⟨-, xs, h, -⟩; cases h⟩
    | some xs =>
      constructor
      · exact fun h => ⟨rfl, xs, rfl, (Except.ok.inj h).symm⟩
      · rintro ⟨-, xs', h, rfl⟩
        obtain rfl := Option.some.inj h
        rfl

/-- **What the linear solve answers** is zero at the fixed components and balances the load at the
free ones. -/
theorem solveLinear_isBalancedBy {x : Solution n ℝ} (h : solveLinear K F fixed limit = .ok x) :
    IsBalancedBy K F fixed x.displacement := by
  obtain ⟨-, xs, hxs, rfl⟩ := solveLinear_eq_ok_iff.mp h
  obtain ⟨hlength, hsolves⟩ :=
    solveEquations_solves (fun _ he => freeSystem_rows he) (List.length_map _) hxs
  refine (isBalancedBy_iff fun k hk => spread_get_fixed hk).mpr ?_
  rw [map_spread hlength]
  exact hsolves

/-- **Nothing else is.** -/
theorem solveLinear_unique {x : Solution n ℝ} (h : solveLinear K F fixed limit = .ok x)
    {d : Vector ℝ n} (hd : IsBalancedBy K F fixed d) : d = x.displacement := by
  obtain ⟨-, xs, hxs, rfl⟩ := solveLinear_eq_ok_iff.mp h
  have hfree : (freeComponents n fixed).map d.get = xs :=
    solveEquations_unique (fun _ he => freeSystem_rows he) hxs (List.length_map _)
      ((isBalancedBy_iff hd.held).mp hd)
  have hlength : xs.length = (freeComponents n fixed).length := by
    rw [← hfree, List.length_map]
  refine SystemVector.ext_get fun k => ?_
  by_cases hk : (k.val : Int) ∈ fixed
  · rw [hd.held _ hk, spread_get_fixed hk]
  · refine List.map_inj_left.mp ?_ _ (mem_freeComponents.mpr hk)
    rw [hfree, map_spread hlength]

/-! ## Regular blocks -/

/-- Only the zero displacement is zero at the fixed components and needs no load at the free
ones. -/
def IsRegular (K : Square n ℝ) (fixed : List Int) : Prop :=
  ∀ d, IsBalancedBy K SystemVector.zero fixed d → d = SystemVector.zero

omit [SeriesAngle] in
/-- The block of the free components is square. -/
theorem freeBlock_rows : ∀ row ∈ freeBlock K fixed, row.length = (freeBlock K fixed).length := by
  intro row hrow
  obtain ⟨k, -, rfl⟩ := List.mem_map.mp hrow
  simp [freeBlock, Square.block]

/-- The block of the free components is regular if the system is. -/
theorem det_freeBlock_ne_zero_iff : (matrixOf (freeBlock K fixed)).det ≠ 0 ↔ IsRegular K fixed := by
  have hblock : (freeBlock K fixed).length = (freeComponents n fixed).length := List.length_map _
  have hzero {d : Vector ℝ n} (hd : ∀ k : Fin n, (k.val : Int) ∈ fixed → d.get k = 0) :
      IsBalancedBy K SystemVector.zero fixed d ↔ ∀ row ∈ freeBlock K fixed,
        dotList row ((freeComponents n fixed).map d.get) = 0 := by
    rw [isBalancedBy_iff hd, freeSystem, freeBlock, Square.block, List.forall_mem_map,
      List.forall_mem_map]
    exact forall₂_congr fun k _ => by rw [SystemVector.get_zero]
  rw [det_matrixOf_ne_zero_iff freeBlock_rows]
  constructor
  · -- the free components of such a displacement are orthogonal to the block
    intro h d hd
    have hys := h _ ((List.length_map _).trans hblock.symm) ((hzero hd.held).mp hd)
    refine SystemVector.ext_get fun k => ?_
    rw [SystemVector.get_zero]
    by_cases hk : (k.val : Int) ∈ fixed
    · exact hd.held _ hk
    · exact hys _ (List.mem_map_of_mem (mem_freeComponents.mpr hk))
  · -- and unknowns that are orthogonal to it are those of such a displacement
    intro h ys hlength horthogonal y hy
    have hys := map_spread (n := n) (hlength.trans hblock)
    have hspread : (spread fixed ys : Vector ℝ n) = SystemVector.zero := by
      refine h _ ((hzero fun k hk => spread_get_fixed hk).mpr ?_)
      rwa [hys]
    rw [← hys, hspread] at hy
    obtain ⟨k, -, rfl⟩ := List.mem_map.mp hy
    exact SystemVector.get_zero k

/-- **The linear solve accepts** a regular block with a condition number up to the limit. -/
theorem checkCondition_eq_ok_iff : checkCondition (freeBlock K fixed) limit = .ok ()
    ↔ freeComponents n fixed ≠ [] ∧ IsRegular K fixed
      ∧ conditionNumber (freeBlock K fixed) ≤ limit := by
  have hempty : freeBlock K fixed = [] ↔ freeComponents n fixed = [] := List.map_eq_nil_iff
  rw [← det_freeBlock_ne_zero_iff, ne_eq, ← hempty]
  unfold checkCondition
  rw [condition_eq]
  by_cases hnil : freeBlock K fixed = []
  · rw [if_pos hnil]
    exact ⟨nofun, fun h => absurd hnil h.1⟩
  rw [if_neg hnil]
  by_cases hdet : (matrixOf (freeBlock K fixed)).det = 0
  · rw [if_pos hdet]
    exact ⟨nofun, fun h => absurd hdet h.2.1⟩
  rw [if_neg hdet]
  by_cases hlimit : limit < conditionNumber (freeBlock K fixed)
  · have hrefused : (if Scalar.lt limit (conditionNumber (freeBlock K fixed)) = true
        then (.error (.unstable limit) : Except (Failure ℝ) Unit) else .ok ())
          = .error (.unstable limit) := if_pos (Scalar.lt_real.mpr hlimit)
    refine ⟨fun h => ?_, fun h => absurd hlimit h.2.2.not_gt⟩
    cases hrefused.symm.trans h
  · exact ⟨fun _ => ⟨hnil, hdet, not_lt.mp hlimit⟩,
      fun _ => if_neg fun h => hlimit (Scalar.lt_real.mp h)⟩

/-- What it accepts it solves. -/
theorem exists_solveLinear (h : checkCondition (freeBlock K fixed) limit = .ok ())
    (F : Vector ℝ n) :
    ∃ x, solveLinear K F fixed limit = .ok x := by
  obtain ⟨-, hregular, -⟩ := checkCondition_eq_ok_iff.mp h
  have hblock : (freeBlock K fixed).length = (freeComponents n fixed).length := List.length_map _
  cases hxs : solveEquations (freeComponents n fixed).length (freeSystem K F fixed) with
  | some xs => exact ⟨_, solveLinear_eq_ok_iff.mpr ⟨h, xs, hxs, rfl⟩⟩
  | none =>
    obtain ⟨ys, hlength, ⟨y, hy, hne⟩, horthogonal⟩ :=
      solveEquations_eq_none (fun _ he => freeSystem_rows he) (List.length_map _) hxs
    have hdet := det_freeBlock_ne_zero_iff.mpr hregular
    refine absurd ((det_matrixOf_ne_zero_iff freeBlock_rows).mp hdet ys
      (hlength.trans hblock.symm) ?_ y hy) hne
    intro row hrow
    obtain ⟨k, hk, rfl⟩ := List.mem_map.mp hrow
    exact horthogonal _ (List.mem_map_of_mem hk)

end Corotation
