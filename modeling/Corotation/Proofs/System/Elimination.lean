import Mathlib.Tactic.FieldSimp
import Mathlib.Tactic.LinearCombination
import Corotation.Proofs.Scalar.Real
import Corotation.System.Elimination
/-!
# Elimination over the real numbers

A pivot that is not zero determines its unknown from the others, and an equation freed of that
unknown says of the others what the equation says of all (`Equation.free_solves_iff`). So where
elimination ends with numbers they solve the system, and nothing else does
(`solveEquations_solves`, `solveEquations_unique`). Where it ends without, a square system has
coefficients that some unknowns, not all zero, are orthogonal to (`solveEquations_eq_none`).
-/

namespace Corotation

open SystemVector (dotList)

variable [SeriesAngle]

/-! ## Scalar products of lists -/

section DotList

variable (a b : ℝ) (as bs : List ℝ)

@[simp] theorem dotList_nil : dotList as ([] : List ℝ) = 0 := by
  cases as <;> rfl

/-- A scalar product is a sum. -/
theorem dotList_eq_sum : dotList as bs = (List.zipWith (fun x y => x * y) as bs).sum := by
  rw [List.sum_eq_foldl]
  rfl

@[simp] theorem dotList_cons : dotList (a :: as) (b :: bs) = a * b + dotList as bs := by
  rw [dotList_eq_sum, dotList_eq_sum, List.zipWith_cons_cons, List.sum_cons]

/-- Zeros are orthogonal to everything. -/
@[simp] theorem dotList_replicate_zero (k : Nat) : dotList as (List.replicate k 0) = 0 := by
  induction as generalizing k with
  | nil => rfl
  | cons a as ih =>
    cases k with
    | zero => rfl
    | succ k => rw [List.replicate_succ, dotList_cons, ih, mul_zero, add_zero]

/-- A multiple subtracted from coefficients is subtracted from the scalar product. -/
theorem dotList_sub_mul (m : ℝ) {as bs : List ℝ} (h : as.length = bs.length) (xs : List ℝ) :
    dotList (List.zipWith (fun a b => a - m * b) as bs) xs = dotList as xs - m * dotList bs xs := by
  induction as generalizing bs xs with
  | nil =>
    obtain rfl := List.length_eq_zero_iff.mp h.symm
    simp [dotList_eq_sum]
  | cons a as ih =>
    cases bs with
    | nil => cases h
    | cons b bs =>
      cases xs with
      | nil => simp
      | cons x xs =>
        rw [List.zipWith_cons_cons, dotList_cons, dotList_cons, dotList_cons,
          ih (Nat.succ.inj h)]
        ring

end DotList

/-! ## Pivots -/

namespace Equation

/-- The coefficients of an equation with its right side. -/
def toPair (e : Equation ℝ) : List ℝ × ℝ := (e.lead :: e.rest, e.right)

omit [SeriesAngle] in
/-- Coefficients for at least one unknown are those of an equation. -/
theorem exists_map_toPair {k : Nat} {system : List (List ℝ × ℝ)}
    (h : ∀ e ∈ system, e.1.length = k + 1) :
    ∃ es : List (Equation ℝ), system = es.map toPair ∧ ∀ e ∈ es, e.rest.length = k := by
  induction system with
  | nil => exact ⟨[], rfl, nofun⟩
  | cons e system ih =>
    obtain ⟨es, rfl, hes⟩ := ih fun e' he' => h e' (List.mem_cons_of_mem e he')
    obtain ⟨coefficients, right⟩ := e
    cases coefficients with
    | nil => cases h _ List.mem_cons_self
    | cons c cs =>
      refine ⟨⟨c, cs, right⟩ :: es, rfl, fun e he => ?_⟩
      rcases List.mem_cons.mp he with rfl | he
      · exact Nat.succ.inj (h _ List.mem_cons_self)
      · exact hes e he

omit [SeriesAngle] in
/-- The equations with given coefficients are found again. -/
theorem filterMap_toPair (es : List (Equation ℝ)) :
    (es.map toPair).filterMap (fun e => ofCoefficients? e.1 e.2) = es := by
  induction es with
  | nil => rfl
  | cons e es ih =>
    rw [List.map_cons, List.filterMap_cons]
    simp only [toPair, ofCoefficients?]
    exact congrArg (e :: ·) ih

/-- The choice of a pivot leaves the other equations. -/
theorem choose_perm (e : Equation ℝ) (es : List (Equation ℝ)) :
    ((choose e es).1 :: (choose e es).2).Perm (e :: es) := by
  induction es generalizing e with
  | nil => exact .refl _
  | cons e' es ih =>
    simp only [choose]
    split
    · exact (List.Perm.swap _ _ _).trans ((ih e').cons e)
    · exact .refl _

/-- A pivot has the largest leading coefficient. -/
theorem lead_le_choose (e : Equation ℝ) (es : List (Equation ℝ)) :
    ∀ e' ∈ e :: es, |e'.lead| ≤ |(choose e es).1.lead| := by
  induction es generalizing e with
  | nil =>
    intro e' he'
    rw [List.mem_singleton.mp he']
    rfl
  | cons e₁ es ih =>
    simp only [choose]
    split
    · rename_i hlt
      rw [Scalar.magnitude_real, Scalar.magnitude_real, Scalar.lt_real] at hlt
      intro e' he'
      rcases List.mem_cons.mp he' with rfl | he'
      · exact hlt.le
      · exact ih e₁ e' he'
    · rename_i hle
      rw [Scalar.magnitude_real, Scalar.magnitude_real, Scalar.lt_real, not_lt] at hle
      intro e' he'
      rcases List.mem_cons.mp he' with rfl | he'
      · rfl
      · exact (ih e₁ e' he').trans hle

variable {pivot e : Equation ℝ}

/-- **An equation freed of the first unknown** says of the others what it says of all, if the first
one is what the pivot makes of it. -/
theorem free_solves_iff (hlead : pivot.lead ≠ 0) (hlength : e.rest.length = pivot.rest.length)
    {x : ℝ} {xs : List ℝ} (hx : dotList pivot.toPair.1 (x :: xs) = pivot.right) :
    dotList (pivot.free e).1 xs = (pivot.free e).2 ↔ dotList e.toPair.1 (x :: xs) = e.right := by
  have hfree : dotList (pivot.free e).1 xs
      = dotList e.rest xs - e.lead / pivot.lead * dotList pivot.rest xs :=
    dotList_sub_mul _ hlength xs
  have hright : (pivot.free e).2 = e.right - e.lead / pivot.lead * pivot.right := rfl
  rw [toPair, dotList_cons] at hx ⊢
  rw [hfree, hright, ← hx]
  have hmul : e.lead / pivot.lead * (pivot.lead * x) = e.lead * x := by
    field_simp
  constructor
  · intro h
    linear_combination h - hmul
  · intro h
    linear_combination h + hmul

/-- The equation with the right side zero. -/
def homogeneous (e : Equation ℝ) : Equation ℝ := { e with right := 0 }

/-- So is it where the right sides are zero. -/
theorem free_orthogonal_iff (hlead : pivot.lead ≠ 0) (hlength : e.rest.length = pivot.rest.length)
    {x : ℝ} {xs : List ℝ} (hx : dotList pivot.toPair.1 (x :: xs) = 0) :
    dotList (pivot.free e).1 xs = 0 ↔ dotList e.toPair.1 (x :: xs) = 0 := by
  have hlead' : pivot.homogeneous.lead ≠ 0 := hlead
  have hlength' : e.homogeneous.rest.length = pivot.homogeneous.rest.length := hlength
  have hiff : dotList (pivot.homogeneous.free e.homogeneous).1 xs
      = (pivot.homogeneous.free e.homogeneous).2 ↔ dotList e.toPair.1 (x :: xs) = 0 :=
    free_solves_iff hlead' hlength' hx
  have hright : (pivot.homogeneous.free e.homogeneous).2 = 0 := by
    change (0 : ℝ) - e.lead / pivot.lead * 0 = 0
    ring
  rw [hright] at hiff
  exact hiff

/-- The first unknown that a pivot gives for the others. -/
noncomputable def unknown (pivot : Equation ℝ) (xs : List ℝ) : ℝ :=
  (pivot.right - dotList pivot.rest xs) / pivot.lead

/-- It is the only one that solves the pivot with them. -/
theorem solves_iff_eq_unknown (hlead : pivot.lead ≠ 0) {x : ℝ} {xs : List ℝ} :
    dotList pivot.toPair.1 (x :: xs) = pivot.right ↔ x = pivot.unknown xs := by
  rw [toPair, dotList_cons, unknown, eq_div_iff hlead]
  constructor <;> intro h <;> linarith

/-- A pivot of equations in `k + 1` unknowns, with the others. -/
structure IsPivot (k : Nat) (es : List (Equation ℝ)) (pivot : Equation ℝ)
    (others : List (Equation ℝ)) : Prop where
  perm : (pivot :: others).Perm es
  largest : ∀ e ∈ es, |e.lead| ≤ |pivot.lead|
  rest : ∀ e ∈ es, e.rest.length = k

namespace IsPivot

variable {k : Nat} {es others : List (Equation ℝ)} (h : IsPivot k es pivot others)

include h

omit [SeriesAngle] in
theorem mem : pivot ∈ es := h.perm.subset List.mem_cons_self

omit [SeriesAngle] in
theorem mem_of_other (he : e ∈ others) : e ∈ es := h.perm.subset (List.mem_cons_of_mem pivot he)

omit [SeriesAngle] in
theorem rest_length (he : e ∈ es) : e.rest.length = pivot.rest.length :=
  (h.rest e he).trans (h.rest pivot h.mem).symm

/-- The others freed of the first unknown are equations in the other unknowns. -/
theorem free_length : ∀ e ∈ others.map pivot.free, e.1.length = k := by
  intro e' he'
  obtain ⟨e, he, rfl⟩ := List.mem_map.mp he'
  change (List.zipWith _ e.rest pivot.rest).length = k
  rw [List.length_zipWith, h.rest e (h.mem_of_other he), h.rest pivot h.mem, min_self]

/-- There is one less of them. -/
theorem length_others (hsquare : (es.map toPair).length = k + 1) :
    (others.map pivot.free).length = k := by
  have hcount := h.perm.length_eq
  rw [List.length_map] at hsquare ⊢
  rw [List.length_cons] at hcount
  omega

end IsPivot

end Equation

/-! ## Systems -/

open Equation (toPair)

variable {k : Nat} {system : List (List ℝ × ℝ)} {xs ys : List ℝ}

/-- **One step of an elimination**, with the pivot and the other equations. -/
theorem solveEquations_step {es : List (Equation ℝ)} (hes : ∀ e ∈ es, e.rest.length = k) :
    es = [] ∧ solveEquations (k + 1) (es.map toPair) = none
      ∨ ∃ pivot others, Equation.IsPivot k es pivot others
        ∧ solveEquations (k + 1) (es.map toPair) = if pivot.lead = 0 then none
          else (solveEquations k (others.map pivot.free)).map fun xs => pivot.unknown xs :: xs := by
  cases es with
  | nil => exact .inl ⟨rfl, rfl⟩
  | cons e es =>
    set pivot := (Equation.choose e es).1 with hpivot
    set others := (Equation.choose e es).2 with hothers
    refine .inr ⟨pivot, others, ⟨Equation.choose_perm e es, Equation.lead_le_choose e es, hes⟩, ?_⟩
    rw [solveEquations, Equation.filterMap_toPair]
    simp only [← hpivot, ← hothers, Scalar.isZero_real]
    split
    · rfl
    · cases solveEquations k (others.map pivot.free) <;> rfl

/-- Where it finds something the pivot is not zero, and gives the first unknown for what is found
for the others. -/
theorem solveEquations_eq_some {es : List (Equation ℝ)} (hes : ∀ e ∈ es, e.rest.length = k)
    (h : solveEquations (k + 1) (es.map toPair) = some xs) :
    ∃ pivot others xs', Equation.IsPivot k es pivot others ∧ pivot.lead ≠ 0
      ∧ solveEquations k (others.map pivot.free) = some xs' ∧ xs = pivot.unknown xs' :: xs' := by
  rcases solveEquations_step hes with ⟨-, hnone⟩ | ⟨pivot, others, hchosen, hstep⟩
  · cases h.symm.trans hnone
  rw [hstep] at h
  split at h
  · cases h
  rename_i hlead
  obtain ⟨xs', hxs', rfl⟩ := Option.map_eq_some_iff.mp h
  exact ⟨pivot, others, xs', hchosen, hlead, hxs', rfl⟩

/-- **What elimination finds solves a square system.** -/
theorem solveEquations_solves (hrows : ∀ e ∈ system, e.1.length = k) (hsquare : system.length = k)
    (h : solveEquations k system = some xs) :
    xs.length = k ∧ ∀ e ∈ system, dotList e.1 xs = e.2 := by
  induction k generalizing system xs with
  | zero =>
    obtain rfl := Option.some.inj h
    rw [List.length_eq_zero_iff.mp hsquare]
    exact ⟨rfl, nofun⟩
  | succ k ih =>
    obtain ⟨es, rfl, hes⟩ := Equation.exists_map_toPair hrows
    obtain ⟨pivot, others, xs', hchosen, hlead, hxs', rfl⟩ := solveEquations_eq_some hes h
    obtain ⟨hlength', hsolves⟩ := ih hchosen.free_length (hchosen.length_others hsquare) hxs'
    have hpivot : dotList pivot.toPair.1 (pivot.unknown xs' :: xs') = pivot.right :=
      (Equation.solves_iff_eq_unknown hlead).mpr rfl
    refine ⟨congrArg Nat.succ hlength', fun e' he' => ?_⟩
    obtain ⟨e, he, rfl⟩ := List.mem_map.mp he'
    rcases List.mem_cons.mp (hchosen.perm.symm.subset he) with rfl | hother
    · exact hpivot
    · exact (Equation.free_solves_iff hlead (hchosen.rest_length he) hpivot).mp
        (hsolves _ (List.mem_map_of_mem hother))

/-- **Nothing else solves it.** -/
theorem solveEquations_unique (hrows : ∀ e ∈ system, e.1.length = k)
    (h : solveEquations k system = some xs) (hlength : ys.length = k)
    (hys : ∀ e ∈ system, dotList e.1 ys = e.2) : ys = xs := by
  induction k generalizing system xs ys with
  | zero =>
    obtain rfl := Option.some.inj h
    exact List.length_eq_zero_iff.mp hlength
  | succ k ih =>
    obtain ⟨es, rfl, hes⟩ := Equation.exists_map_toPair hrows
    obtain ⟨pivot, others, xs', hchosen, hlead, hxs', rfl⟩ := solveEquations_eq_some hes h
    obtain ⟨y, ys', rfl⟩ := List.exists_cons_of_length_eq_add_one hlength
    have hmem {e : Equation ℝ} (he : e ∈ es) : dotList e.toPair.1 (y :: ys') = e.right :=
      hys _ (List.mem_map_of_mem he)
    have hpivot := hmem hchosen.mem
    have hrest : ys' = xs' := by
      refine ih hchosen.free_length hxs' (Nat.succ.inj hlength) fun e' he' => ?_
      obtain ⟨e, he, rfl⟩ := List.mem_map.mp he'
      have hother := hchosen.mem_of_other he
      exact (Equation.free_solves_iff hlead (hchosen.rest_length hother) hpivot).mpr (hmem hother)
    rw [(Equation.solves_iff_eq_unknown hlead).mp hpivot, hrest]

/-- **Where elimination finds nothing** some unknowns, not all zero, are orthogonal to the
coefficients of a square system. -/
theorem solveEquations_eq_none (hrows : ∀ e ∈ system, e.1.length = k) (hsquare : system.length = k)
    (h : solveEquations k system = none) :
    ∃ ys : List ℝ, ys.length = k ∧ (∃ y ∈ ys, y ≠ 0) ∧ ∀ e ∈ system, dotList e.1 ys = 0 := by
  induction k generalizing system with
  | zero => cases h
  | succ k ih =>
    obtain ⟨es, rfl, hes⟩ := Equation.exists_map_toPair hrows
    rcases solveEquations_step hes with ⟨rfl, -⟩ | ⟨pivot, others, hchosen, hstep⟩
    · cases hsquare
    rw [hstep] at h
    split at h
    · -- no equation has the first unknown
      rename_i hlead
      refine ⟨1 :: List.replicate k 0, by simp, ⟨1, List.mem_cons_self, one_ne_zero⟩, ?_⟩
      intro e' he'
      obtain ⟨e, he, rfl⟩ := List.mem_map.mp he'
      have hzero : e.lead = 0 := by
        have hle := hchosen.largest e he
        rw [hlead, abs_zero] at hle
        exact abs_eq_zero.mp (le_antisymm hle (abs_nonneg _))
      rw [toPair, dotList_cons, hzero, dotList_replicate_zero, zero_mul, add_zero]
    · rename_i hlead
      obtain ⟨ys, hys, ⟨y, hy, hne⟩, horthogonal⟩ :=
        ih hchosen.free_length (hchosen.length_others hsquare) (Option.map_eq_none_iff.mp h)
      set x := -dotList pivot.rest ys / pivot.lead with hx
      have hpivot : dotList pivot.toPair.1 (x :: ys) = 0 := by
        rw [toPair, dotList_cons, hx]
        field_simp
        ring
      refine ⟨x :: ys, congrArg Nat.succ hys, ⟨y, List.mem_cons_of_mem _ hy, hne⟩, ?_⟩
      intro e' he'
      obtain ⟨e, he, rfl⟩ := List.mem_map.mp he'
      rcases List.mem_cons.mp (hchosen.perm.symm.subset he) with rfl | hother
      · exact hpivot
      · exact (Equation.free_orthogonal_iff hlead (hchosen.rest_length he) hpivot).mp
          (horthogonal _ (List.mem_map_of_mem hother))

end Corotation
