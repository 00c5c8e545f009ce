import Corotation.Proofs.System.Linear
/-!
# What a list of fixed components supports

A list of numbers is read in two ways in a run. The residual is held at every component that a
number names, also one counted from the end. The linear solve keeps at zero the components whose
own numbers are listed. So a component that is listed from the end only is moved by the
corrections: the residual is zero there, but its displacement follows what it is coupled to.

A list is safe if every component that it names is listed by its own number, or if it names all
components, so that no residual is ever left (`keepsSupports_iff`). Any other list frees a support
of some linear model, in two iterations (`solveNewton_coupled`).
-/

namespace Corotation

variable {n : Nat} {fixed : List Int}

/-- A number of the list names the component. -/
def Supports (fixed : List Int) (k : Fin n) : Prop := ∃ i ∈ fixed, position? n i = some k

instance (fixed : List Int) (k : Fin n) : Decidable (Supports fixed k) :=
  inferInstanceAs (Decidable (∃ i ∈ fixed, position? n i = some k))

/-- A component is supported under its own number or counted from the end. -/
theorem supports_iff {k : Fin n} :
    Supports fixed k ↔ (k.val : Int) ∈ fixed ∨ (k.val : Int) - n ∈ fixed := by
  constructor
  · rintro ⟨i, hi, hk⟩
    rcases position?_eq_some_iff.mp hk with rfl | hback
    · exact .inl hi
    · exact .inr (by rwa [show (k.val : Int) - n = i by omega])
  · rintro (hk | hk)
    · exact ⟨_, hk, position?_eq_some_iff.mpr (.inl rfl)⟩
    · exact ⟨_, hk, position?_eq_some_iff.mpr (.inr (by omega))⟩

/-- The components that a resolved list holds are those that it supports. -/
theorem mem_held_iff_supports {α : Type} {held : List (Fin n)}
    (h : resolve (α := α) n fixed = .ok held) {k : Fin n} : k ∈ held ↔ Supports fixed k :=
  (mem_of_resolve h).trans supports_iff.symm

namespace Newton

variable [SeriesAngle] {σ : Type} {m : Model σ n ℝ} {settings : Settings ℝ} {F : Vector ℝ n}
variable {inc : Increment n ℝ} {d : Vector ℝ n} {s s₀ : σ} {events : List (Event n ℝ)} {k : Nat}

/-! ## Lists that name all components -/

/-- A zero residual is corrected by nothing. -/
theorem correction_eq_zero {K : Square n ℝ} {limit : ℝ} {x : Solution n ℝ}
    (h : solveLinear K SystemVector.zero fixed limit = .ok x) :
    x.displacement = SystemVector.zero := by
  have hzero : IsBalancedBy K SystemVector.zero fixed SystemVector.zero := by
    refine ⟨fun k _ => SystemVector.get_zero k, fun k _ => ?_⟩
    rw [get_apply_zero, SystemVector.get_zero]
  exact (solveLinear_unique h hzero).symm

/-- Where no residual is left an approach stays at its start. -/
theorem Approach.eq_start {d₀ : Vector ℝ n}
    (hresidual : ∀ response, inc.residual response = SystemVector.zero)
    (h : Approach m inc d₀ s₀ k d s events) : d = d₀ := by
  induction h with
  | start => rfl
  | correct _ _ hcorrection ih =>
    rw [Increment.correction, hresidual] at hcorrection
    rw [correction_eq_zero hcorrection, ih, SystemVector.add_zero_eq]

/-- A list that names all components leaves nothing displaced. -/
theorem Course.eq_zero_of_supports {its : List Nat} (hall : ∀ k : Fin n, Supports fixed k)
    (h : Course m settings F fixed s₀ k d s events its) : d = SystemVector.zero := by
  induction h with
  | start => rfl
  | accept _ hlast ih =>
    obtain ⟨inc, _, _, _, hinc, happroach, -⟩ := loadStep_accepted hlast
    obtain ⟨held, hheld, rfl⟩ := increment_eq_ok_iff.mp hinc
    -- every component is held, so nothing is left to be corrected
    rw [happroach.eq_start fun response => ?_, ih]
    refine SystemVector.ext_get fun k => ?_
    rw [Increment.get_residual, SystemVector.get_zero]
    exact if_pos ((mem_held_iff_supports hheld).mpr (hall k))

end Newton

/-! ## Coupled components -/

/-- A displacement of one at the components of a list. -/
def indicator (ks : List (Fin n)) : Vector ℝ n := .ofFn fun k => if k ∈ ks then 1 else 0

theorem get_indicator (ks : List (Fin n)) (k : Fin n) :
    (indicator ks).get k = if k ∈ ks then 1 else 0 := Vector.getElem_ofFn k.isLt

/-- The matrix that resists every component, the component `a` where it differs from `p`. -/
def coupling (a p : Fin n) : Square n ℝ :=
  .ofFn fun i => .ofFn fun j => (if i = j then 1 else 0) - if i = a ∧ j = p then 1 else 0

theorem get_coupling (a p i j : Fin n) : ((coupling a p).get i).get j
    = (if i = j then 1 else 0) - if i = a ∧ j = p then 1 else 0 := by
  have hrow : (coupling a p).get i = _ := Vector.getElem_ofFn i.isLt
  rw [hrow]
  exact Vector.getElem_ofFn j.isLt

variable [SeriesAngle] {a p : Fin n}

theorem get_apply_coupling (d : Vector ℝ n) (k : Fin n) :
    ((coupling a p).apply d).get k = d.get k - if k = a then d.get p else 0 := by
  rw [get_apply, ← Fin.sum_univ_def]
  simp only [get_coupling, sub_mul, ite_mul, one_mul, zero_mul, Finset.sum_sub_distrib,
    Finset.sum_ite_eq, Finset.mem_univ, if_true, ite_and]
  by_cases hk : k = a
  · simp only [hk, if_true, Finset.sum_ite_eq', Finset.mem_univ]
  · simp only [hk, if_false, Finset.sum_const_zero]

section Coupled

variable (hap : a ≠ p) (ha : (a.val : Int) ∉ fixed) (hp : (p.val : Int) ∉ fixed)

include hap ha hp

/-- A load at `p` displaces both by as much. -/
theorem isBalancedBy_coupling :
    IsBalancedBy (coupling a p) (indicator [p]) fixed (indicator [a, p]) := by
  have hpa : p ≠ a := hap.symm
  constructor
  · intro k hk
    rw [get_indicator, if_neg]
    simp only [List.mem_cons, List.not_mem_nil, or_false]
    rintro (rfl | rfl)
    · exact ha hk
    · exact hp hk
  · intro k _
    rw [get_apply_coupling, get_indicator, get_indicator, get_indicator]
    by_cases hk : k = a
    · simp [hk, hap]
    · simp [hk]

omit ha in
/-- Nothing is displaced without a load. -/
theorem isRegular_coupling : IsRegular (coupling a p) fixed := by
  intro d hd
  have hfree (k : Fin n) (hk : (k.val : Int) ∉ fixed) :
      d.get k = if k = a then d.get p else 0 := by
    have hbalanced := hd.balanced k hk
    rw [get_apply_coupling, SystemVector.get_zero] at hbalanced
    exact sub_eq_zero.mp hbalanced
  have hzero : d.get p = 0 := by rw [hfree p hp, if_neg hap.symm]
  refine SystemVector.ext_get fun k => ?_
  rw [SystemVector.get_zero]
  by_cases hk : (k.val : Int) ∈ fixed
  · exact hd.held k hk
  · rw [hfree k hk, hzero, ite_self]

/-- The linear solve answers so, if the condition number of its block is allowed. -/
theorem exists_solveLinear_coupling {limit : ℝ}
    (hlimit : conditionNumber (freeBlock (coupling a p) fixed) ≤ limit) :
    ∃ x, solveLinear (coupling a p) (indicator [p]) fixed limit = .ok x
      ∧ x.displacement = indicator [a, p] := by
  have hfree : freeComponents n fixed ≠ [] := List.ne_nil_of_mem (mem_freeComponents.mpr hp)
  obtain ⟨x, hx⟩ := exists_solveLinear
    (checkCondition_eq_ok_iff.mpr ⟨hfree, isRegular_coupling hap hp, hlimit⟩) (indicator [p])
  exact ⟨x, hx, (solveLinear_unique hx (isBalancedBy_coupling hap ha hp)).symm⟩

end Coupled

namespace Newton

/-- Two iterations of one increment in which only a zero residual counts as converged. -/
def twoIterations (limit : ℝ) : Settings ℝ := ⟨1, 0, 2, limit⟩

/-- **A component that is not in the linear solve by its own number is displaced**, although its
residual is held, by a load on a component that the list does not name. -/
theorem solveNewton_coupled (hfixed : ∀ i ∈ fixed, -n ≤ i ∧ i < n) (hap : a ≠ p)
    (ha : (a.val : Int) ∉ fixed) (hp : ¬ Supports fixed p) {limit : ℝ}
    (hlimit : conditionNumber (freeBlock (coupling a p) fixed) ≤ limit) :
    (solveNewton (Supplied.cubicModel (coupling a p) SystemVector.zero false) (twoIterations limit)
      (indicator [p]) fixed ()).ending = .ok (indicator [a, p], [2]) := by
  have hp' : (p.val : Int) ∉ fixed := fun h => hp (supports_iff.mpr (.inl h))
  obtain ⟨held, hheld⟩ : ∃ held, resolve (α := ℝ) n fixed = .ok held := exists_resolve hfixed
  set m := Supplied.cubicModel (coupling a p) SystemVector.zero false
  have hanswers (d : Vector ℝ n) : AnswersBy m (coupling a p) d () :=
    cubicModel_answersBy _ _ _ _
  set inc := (twoIterations limit).incrementAt (indicator [p]) fixed held 1
  have hinc : increment (twoIterations limit) (indicator [p]) fixed 1 = .ok inc :=
    increment_eq_ok_iff.mpr ⟨held, hheld, rfl⟩
  -- at first nothing is resisted, and nothing of the load is held
  have hresidual : inc.residual ⟨coupling a p, (coupling a p).apply SystemVector.zero⟩
      = indicator [p] := by
    refine SystemVector.ext_get fun k => ?_
    have hload : inc.load.get k = (indicator [p]).get k := by
      refine (SystemVector.get_scale _ _ k).trans ?_
      exact (congrArg (· * _) (div_one (1 : ℝ))).trans (one_mul _)
    rw [Increment.get_residual, get_apply_zero, hload]
    by_cases hk : k ∈ held
    · have hne : k ≠ p := by
        rintro rfl
        exact hp ((mem_held_iff_supports hheld).mp hk)
      have hnone : (indicator [p]).get k = (0 : ℝ) := by simp [get_indicator, hne]
      exact (if_pos hk).trans hnone.symm
    · exact (if_neg hk).trans (sub_zero _)
  obtain ⟨x, hx, hdisplacement⟩ := exists_solveLinear_coupling hap ha hp' hlimit
  have hmisses : Misses m inc SystemVector.zero () ⟨coupling a p, (coupling a p).apply
      SystemVector.zero⟩ := by
    refine ⟨hanswers _, fun hsmall => ?_⟩
    have htolerance : inc.tolerance = 0 := zero_mul _
    rw [hresidual, htolerance, Scalar.le_real, SystemVector.norm_le_zero_iff] at hsmall
    have hone : (indicator [p]).get p = (1 : ℝ) := by simp [get_indicator]
    rw [hsmall, SystemVector.get_zero] at hone
    exact zero_ne_one hone
  have hadd : SystemVector.add SystemVector.zero x.displacement = indicator [a, p] := by
    rw [SystemVector.zero_add_eq, hdisplacement]
  have hcorrection : inc.correction ⟨coupling a p, (coupling a p).apply SystemVector.zero⟩
      = .ok x := by
    rw [Increment.correction, hresidual]
    exact hx
  have hstep := loadStep_of_correction hinc le_rfl le_rfl hmisses hcorrection hadd rfl
    (hanswers _) rfl rfl
  exact (congrArg Part.ending (loadSteps_of_ok (congrArg Part.ending hstep) 0)).trans rfl

/-! ## Safe lists -/

/-- Every displacement that a run returns is zero at the supported components. -/
def KeepsSupports (n : Nat) (fixed : List Int) : Prop :=
  ∀ (σ : Type) (m : Model σ n ℝ) (settings : Settings ℝ) (F : Vector ℝ n) (s : σ)
    (d : Vector ℝ n) (its : List Nat), (solveNewton m settings F fixed s).ending = .ok (d, its) →
      ∀ k, Supports fixed k → d.get k = 0

/-- **The supports are kept** by a list that has the own number of every component that it names,
or that names all components; by another one they are not. -/
theorem keepsSupports_iff (hfixed : ∀ i ∈ fixed, -n ≤ i ∧ i < n) :
    KeepsSupports n fixed
      ↔ (∀ k : Fin n, Supports fixed k → (k.val : Int) ∈ fixed)
        ∨ ∀ k : Fin n, Supports fixed k := by
  constructor
  · intro hkeeps
    -- a component that is named from the end only follows one that is not named
    by_contra! hnot
    obtain ⟨⟨a, hsupported, ha⟩, p, hp⟩ := hnot
    have hap : a ≠ p := by
      rintro rfl
      exact hp hsupported
    have hzero := hkeeps Unit _ _ _ _ _ _ (solveNewton_coupled hfixed hap ha hp le_rfl) a hsupported
    have hone : (indicator [a, p]).get a = (1 : ℝ) := by simp [get_indicator]
    exact one_ne_zero (hone.symm.trans hzero)
  · intro hsafe σ m settings F s d its hending k hk
    have hcourse := course_of_ok hending
    rcases hsafe with hown | hall
    · exact hcourse.get_fixed (add_zero 0) (hown k hk)
    · rw [hcourse.eq_zero_of_supports hall, SystemVector.get_zero]

omit [SeriesAngle] in
/-- The first of two components, listed twice, and the second, listed from the end. -/
theorem keepsSupports_iff_pair :
    letI : SeriesAngle := .exact
    KeepsSupports 2 [0, -2] ∧ ¬ KeepsSupports 2 [-1] := by
  let _ : SeriesAngle := .exact
  have hown : ∀ k : Fin 2, Supports [0, -2] k → (k.val : Int) ∈ [(0 : Int), -2] := by decide
  have hnot : ¬ ((∀ k : Fin 2, Supports [-1] k → (k.val : Int) ∈ [(-1 : Int)])
      ∨ ∀ k : Fin 2, Supports [-1] k) := by decide
  exact ⟨(keepsSupports_iff (by decide)).mpr (.inl hown),
    fun h => hnot ((keepsSupports_iff (by decide)).mp h)⟩

omit [SeriesAngle] in
/-- **A freed support**: the second of two components is listed from the end, and is displaced as
far as the first one, to which it is tied. -/
theorem solveNewton_frees_support :
    letI : SeriesAngle := .exact
    let K : Square 2 ℝ := #v[#v[1, 0], #v[-1, 1]]
    position? 2 (-1) = some 1
      ∧ (solveNewton (Supplied.cubicModel K #v[0, 0] false) ⟨1, 0, 2, 4⟩ #v[1, 0] [-1] ()).ending
        = .ok (#v[1, 1], [2]) := by
  let _ : SeriesAngle := .exact
  intro K
  refine ⟨rfl, ?_⟩
  have hmatrix : K = coupling 1 0 := by
    refine SystemVector.ext_get fun i => SystemVector.ext_get fun j => ?_
    rw [get_coupling]
    fin_cases i <;> fin_cases j <;> simp [K, Vector.get]
  have hblock : freeBlock (coupling (1 : Fin 2) 0) [-1] = [[1, 0], [-1, 1]] := by
    rw [← hmatrix]
    rfl
  have hlimit : conditionNumber (freeBlock (coupling (1 : Fin 2) 0) [-1]) ≤ 4 := by
    rw [hblock]
    exact conditionNumber_pair
  have hload : (indicator [0] : Vector ℝ 2) = #v[1, 0] := rfl
  have hdisplacement : (indicator [1, 0] : Vector ℝ 2) = #v[1, 1] := rfl
  have hrun := solveNewton_coupled (by decide) (by decide) (by decide) (by decide) hlimit
  rw [← hmatrix, hload, hdisplacement] at hrun
  exact hrun

end Newton

end Corotation
