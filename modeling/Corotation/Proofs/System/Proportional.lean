import Corotation.Proofs.System.Account
import Corotation.Proofs.System.Reactions
/-!
# Proportional loading of a linear model

A model whose forces are those of one matrix, everywhere and in every state, is solved by a run
under any load, as long as the linear solve accepts the block of its free components
(`solveNewton_linear`). Each increment starts where the one before it has stopped, which may be
off the solution by what the tolerance allows. It takes one evaluation if that is still small
enough, and otherwise one correction, which leaves no residual (`Approach.residual_eq_zero`). So
what is left after the last increment is small against the reference load, and nothing is left if
that increment was corrected.

The fixed components must be ones that the system has. A number beyond them ends the run before
anything is evaluated, although the linear solve alone would pass over it (`solveNewton_beyond`).
-/

namespace Corotation

namespace Newton

variable {σ : Type} {n : Nat} {fixed : List Int} {step k : Nat} {s s₀ : σ}

/-! ## Numbers beyond the range -/

/-- A list with a number beyond the range is refused. -/
theorem resolve_beyond {α : Type} {i : Int} (hi : i ∈ fixed) (hbeyond : (n : Int) ≤ i) :
    resolve (α := α) n fixed = .error (.fault .indexRange) := by
  have hnone : position? n i = none := by
    rw [Option.eq_none_iff_forall_ne_some]
    intro p hp
    have hrange := p.isLt
    rcases position?_eq_some_iff.mp hp with h | h <;> omega
  induction fixed with
  | nil => cases hi
  | cons j fixed ih =>
    rw [resolve_cons]
    rcases List.mem_cons.mp hi with rfl | hi
    · rw [hnone]
    · cases position? n j with
      | none => rfl
      | some p =>
        rw [ih hi]
        rfl

/-- **A run with a number beyond the range** ends before anything is evaluated. -/
theorem solveNewton_beyond {α : Type} [Scalar α] [Conditioned α] (m : Model σ n α)
    {settings : Settings α} (F : Vector α n) (hsteps : 0 < settings.steps) {i : Int}
    (hi : i ∈ fixed) (hbeyond : (n : Int) ≤ i) (s : σ) :
    solveNewton m settings F fixed s = ⟨s, [], .error (.fault .indexRange)⟩ := by
  have hstep : loadStep m settings F fixed 1 SystemVector.zero s
      = ⟨s, [], .error (.fault .indexRange)⟩ := by
    simp only [loadStep, increment_eq_error_iff.mpr (resolve_beyond hi hbeyond)]
  obtain ⟨remaining, hremaining⟩ : ∃ remaining, settings.steps = remaining + 1 :=
    ⟨settings.steps - 1, by omega⟩
  rw [solveNewton, hremaining, loadSteps_of_error (congrArg Part.ending hstep), hstep]

/-! ## One increment -/

variable [SeriesAngle] {m : Model σ n ℝ} {K : Square n ℝ} {settings : Settings ℝ}
variable {F : Vector ℝ n} {inc : Increment n ℝ} {d d₀ : Vector ℝ n} {events : List (Event n ℝ)}
variable {its : List Nat}

/-- **A linear model** answers everywhere as its matrix does, and to commit it does not fail. -/
structure IsLinear (m : Model σ n ℝ) (K : Square n ℝ) : Prop where
  answers : ∀ d s, AnswersBy m K d s
  commits : ∀ hook, m.commit? = some hook → ∀ s, (hook s).result = .ok ()

/-- The cubic model without cubes is linear. -/
theorem cubicModel_isLinear (K : Square n ℝ) (hooks : Bool) :
    IsLinear (Supplied.cubicModel K SystemVector.zero hooks) K where
  answers := cubicModel_answersBy K hooks
  commits hook hcommit s := by
    cases hooks with
    | false => cases hcommit
    | true =>
      obtain rfl := Option.some.inj hcommit
      rfl

/-- To commit it, if it can be, does not fail. -/
theorem IsLinear.call_commit (h : IsLinear m K) (s : σ) :
    (call m.commit? (Event.committed (n := n)) s).ending = .ok () := by
  cases hcommit : m.commit? with
  | none => rfl
  | some hook => exact h.commits hook hcommit s

/-- It answers nothing else. -/
theorem IsLinear.response_eq (h : IsLinear m K) {response : Response n ℝ}
    (hmisses : Misses m inc d s response) : response = ⟨K, K.apply d⟩ :=
  Except.ok.inj (hmisses.answers.symm.trans (h.answers d s))

/-- **No residual is left by an approach with a correction**, wherever it has started. -/
theorem Approach.residual_eq_zero (hlinear : IsLinear m K)
    (hinc : increment settings F fixed step = .ok inc)
    (h : Approach m inc d₀ s₀ (k + 1) d s events) :
    inc.residual ⟨K, K.apply d⟩ = SystemVector.zero := by
  cases h with
  | correct _ hmisses hcorrection =>
    obtain rfl := hlinear.response_eq hmisses
    exact residual_of_correction hinc hcorrection

/-- So there is one correction at most. -/
theorem Approach.le_one (hlinear : IsLinear m K) (htolerance : 0 ≤ settings.tolerance)
    (hinc : increment settings F fixed step = .ok inc) (h : Approach m inc d₀ s₀ k d s events) :
    k ≤ 1 := by
  cases h with
  | start => exact zero_le_one
  | @correct k d _ _ response _ hbefore hmisses _ =>
    cases k with
    | zero => exact le_rfl
    | succ k =>
      -- a second correction would have been made for a residual of zero
      obtain rfl := hlinear.response_eq hmisses
      have hsmall : SystemVector.norm (inc.residual ⟨K, K.apply d⟩) ≤ inc.tolerance := by
        rw [hbefore.residual_eq_zero hlinear hinc]
        exact (SystemVector.norm_le_zero_iff.mpr rfl).trans (tolerance_nonneg hinc htolerance)
      exact absurd (Scalar.le_real.mpr hsmall) hmisses.large

/-- What the linear solve accepts is corrected. -/
theorem IsLinear.exists_correction (hlinear : IsLinear m K)
    (hcheck : checkCondition (freeBlock K fixed) settings.conditionLimit = .ok ())
    (hinc : increment settings F fixed step = .ok inc) {response : Response n ℝ}
    (hmisses : Misses m inc d s response) : ∃ x, inc.correction response = .ok x := by
  obtain ⟨held, -, rfl⟩ := increment_eq_ok_iff.mp hinc
  rw [hlinear.response_eq hmisses]
  exact exists_solveLinear hcheck _

/-- **Every increment is accepted.** -/
theorem loadStep_linear (hlinear : IsLinear m K) (htolerance : 0 ≤ settings.tolerance)
    (hiterations : 2 ≤ settings.iterations)
    (hcheck : checkCondition (freeBlock K fixed) settings.conditionLimit = .ok ())
    (hinc : increment settings F fixed step = .ok inc) (d : Vector ℝ n) (s : σ) :
    ∃ result, (loadStep m settings F fixed step d s).ending = .ok result := by
  obtain ⟨k, d', s', events, happroach, hends⟩ := loadStep_ends m hinc d s
  have hk := happroach.le_one hlinear htolerance hinc
  generalize loadStep m settings F fixed step d s = part at hends ⊢
  cases hends with
  | accepted => exact ⟨_, rfl⟩
  | uncommitted _ _ hdone herror =>
    subst hdone
    cases herror.symm.trans (hlinear.call_commit _)
  | exhausted hlimit _ => omega
  | singular _ hmisses herror _ | unsolved _ hmisses herror _ =>
    obtain ⟨x, hx⟩ := hlinear.exists_correction hcheck hinc hmisses
    cases herror.symm.trans hx
  | unanswered _ herror => cases herror.symm.trans (hlinear.answers d' s')

/-! ## The whole load -/

/-- What the forces of a displacement leave of the reference load at the free components. -/
noncomputable def unbalanced (K : Square n ℝ) (F : Vector ℝ n) (fixed : List Int)
    (d : Vector ℝ n) : List ℝ :=
  (freeComponents n fixed).map fun i => F.get i - (K.apply d).get i

/-- Nothing is left where the free components are in equilibrium. -/
theorem normList_unbalanced_eq_zero_iff : SystemVector.normList (unbalanced K F fixed d) = 0
    ↔ ∀ i : Fin n, (i.val : Int) ∉ fixed → (K.apply d).get i = F.get i := by
  have hnorm : SystemVector.normList (unbalanced K F fixed d)
      = √(SystemVector.dotList (unbalanced K F fixed d) (unbalanced K F fixed d)) := rfl
  rw [hnorm, Real.sqrt_eq_zero (SystemVector.dotList_self_nonneg _),
    SystemVector.dotList_self_eq_zero_iff, unbalanced, List.forall_mem_map]
  simp only [mem_freeComponents, sub_eq_zero, eq_comm (a := F.get _)]

/-- The last increment has the whole load. -/
theorem loadAt_steps (hsteps : 0 < settings.steps) (i : Fin n) :
    loadAt settings F settings.steps i = F.get i := by
  have hne : (settings.steps : ℝ) ≠ 0 := Nat.cast_ne_zero.mpr hsteps.ne'
  unfold loadAt
  rw [Scalar.ofNat_real]
  change (settings.steps : ℝ) / settings.steps * F.get i = F.get i
  rw [div_self hne, one_mul]

/-- Its load on the free components is that of the reference. -/
theorem freeLoad_steps (hsteps : 0 < settings.steps) :
    freeLoad settings F fixed settings.steps = (freeComponents n fixed).map F.get :=
  List.map_congr_left fun i _ => loadAt_steps hsteps i

/-- Its residual is what is left of the reference. -/
theorem norm_freeResidual_steps (hsteps : 0 < settings.steps) :
    SystemVector.norm (freeResidual settings F fixed settings.steps (K.apply d))
      = SystemVector.normList (unbalanced K F fixed d) := by
  have hget (i : Fin n) : (freeResidual settings F fixed settings.steps (K.apply d)).get i
      = if (i.val : Int) ∈ fixed then 0 else F.get i - (K.apply d).get i := by
    have hcomponent : (freeResidual settings F fixed settings.steps (K.apply d)).get i = _ :=
      Vector.getElem_ofFn i.isLt
    rw [hcomponent, loadAt_steps hsteps]
  have hsum : SystemVector.dotList
      (freeResidual settings F fixed settings.steps (K.apply d)).toList
      (freeResidual settings F fixed settings.steps (K.apply d)).toList
        = SystemVector.dotList (unbalanced K F fixed d) (unbalanced K F fixed d) := by
    rw [toList_eq_map_get, dotList_map, unbalanced, dotList_map, freeComponents]
    rw [← sum_map_filter (p := fun i : Fin n => !fixed.contains (i.val : Int)) _ fun i hi => ?_]
    · refine congrArg List.sum (List.map_congr_left fun i hi => ?_)
      rw [hget, if_neg (by simpa using (List.mem_filter.mp hi).2)]
    · rw [hget, if_pos (by simpa using hi), mul_zero]
  exact congrArg Real.sqrt hsum

/-! ## A run -/

/-- An increment of a course takes two evaluations at most. -/
theorem Course.le_two (hlinear : IsLinear m K) (htolerance : 0 ≤ settings.tolerance)
    (h : Course m settings F fixed s₀ k d s events its) {it : Nat} (hit : it ∈ its) : it ≤ 2 := by
  induction h with
  | start => cases hit
  | accept _ hlast ih =>
    obtain ⟨inc, k', _, _, hinc, happroach, -, -, rfl, -⟩ := loadStep_accepted hlast
    rcases List.mem_append.mp hit with hit | hit
    · exact ih hit
    · obtain rfl := List.mem_singleton.mp hit
      have := happroach.le_one hlinear htolerance hinc
      omega

/-- **The last increment of a course** leaves little of the load, and nothing if it took two
evaluations. -/
theorem Course.normList_unbalanced (hlinear : IsLinear m K)
    (hfixed : ∀ i ∈ fixed, 0 ≤ i ∧ i < n) (hsteps : 0 < settings.steps)
    (h : Course m settings F fixed s₀ settings.steps d s events its) :
    SystemVector.normList (unbalanced K F fixed d)
        ≤ settings.tolerance * max (SystemVector.normList ((freeComponents n fixed).map F.get)) 1
      ∧ (its.getLast? = some 2 → SystemVector.normList (unbalanced K F fixed d) = 0) := by
  generalize hk : settings.steps = k at h
  cases h with
  | start => omega
  | @accept k it _ _ _ _ its _ hlast =>
    obtain ⟨inc, k', s', events', hinc, happroach, -, hbalances, rfl, -⟩ := loadStep_accepted hlast
    rw [← hk] at hinc
    obtain ⟨hresidual, -⟩ := increment_spec hfixed hinc
    obtain ⟨response, hanswers, hsmall⟩ := hbalances.isBalanced hfixed hinc
    obtain rfl := Except.ok.inj (hanswers.symm.trans (hlinear.answers d s'))
    rw [norm_freeResidual_steps hsteps, freeLoad_steps hsteps, Scalar.larger_real] at hsmall
    refine ⟨Scalar.le_real.mp hsmall, fun hlength => ?_⟩
    rw [List.getLast?_concat, Option.some_inj] at hlength
    obtain rfl : k' = 1 := by omega
    have hzero := happroach.residual_eq_zero hlinear hinc
    rw [hresidual] at hzero
    rw [← norm_freeResidual_steps hsteps, hzero]
    exact le_antisymm (SystemVector.norm_le_zero_iff.mpr rfl) (Real.sqrt_nonneg _)

/-- **A linear model under proportional loading.** If the linear solve accepts the block of the free
components, a run with a tolerance that is not negative and at least two iterations to an increment
returns. Each of its increments has taken one iteration or two, and was committed. The displacement
is zero at the fixed components, and what its forces leave of the reference load at the free ones
is small against that load; if the last increment has taken two iterations nothing is left. A
number that is beyond the components of the system ends a run before anything is evaluated. -/
theorem solveNewton_linear (hlinear : IsLinear m K) (htolerance : 0 ≤ settings.tolerance)
    (hsteps : 0 < settings.steps) (hiterations : 2 ≤ settings.iterations)
    (hfixed : ∀ i ∈ fixed, 0 ≤ i)
    (hcheck : checkCondition (freeBlock K fixed) settings.conditionLimit = .ok ())
    (F : Vector ℝ n) (s : σ) :
    let run := solveNewton m settings F fixed s
    ((∀ i ∈ fixed, i < n) → ∃ d its, run.ending = .ok (d, its) ∧ its.length = settings.steps
        ∧ (∀ it ∈ its, it = 1 ∨ it = 2)
        ∧ run.events.countP Event.isCommit = (if m.commit?.isSome then settings.steps else 0)
        ∧ (∀ i : Fin n, (i.val : Int) ∈ fixed → d.get i = 0)
        ∧ SystemVector.normList (unbalanced K F fixed d) ≤ settings.tolerance
          * max (SystemVector.normList ((freeComponents n fixed).map F.get)) 1
        ∧ (its.getLast? = some 2 →
          ∀ i : Fin n, (i.val : Int) ∉ fixed → (K.apply d).get i = F.get i))
      ∧ ((∃ i ∈ fixed, (n : Int) ≤ i) → run = ⟨s, [], .error (.fault .indexRange)⟩) := by
  intro run
  refine ⟨fun hrange => ?_, fun ⟨i, hi, hbeyond⟩ => solveNewton_beyond m F hsteps hi hbeyond s⟩
  have hnamed : ∀ i ∈ fixed, 0 ≤ i ∧ i < n := fun i hi => ⟨hfixed i hi, hrange i hi⟩
  rcases solveNewton_cases m settings F fixed s with ⟨d, its, hending, hcourse⟩ |
    ⟨k, d, s', _, _, e, -, -, hlast, -⟩
  · have haccount := hcourse.account (add_zero 0) hnamed
    obtain ⟨hsmall, hexact⟩ := hcourse.normList_unbalanced hlinear hnamed hsteps
    refine ⟨d, its, hending, haccount.length, fun it hit => ?_, haccount.commits, haccount.held,
      hsmall, fun hlength => normList_unbalanced_eq_zero_iff.mp (hexact hlength)⟩
    have hpos := (haccount.bounds it hit).1
    have hle := hcourse.le_two hlinear htolerance hit
    omega
  · -- no increment fails
    obtain ⟨inc, hinc⟩ : ∃ inc, increment settings F fixed (k + 1) = .ok inc :=
      exists_increment hnamed (k + 1)
    obtain ⟨result, hresult⟩ := loadStep_linear hlinear htolerance hiterations hcheck hinc d s'
    cases hlast.symm.trans hresult

/-! ### Three components -/

omit [SeriesAngle] in
/-- Three components, the second of which is fixed, and is listed twice. Without any tolerance the
load is carried exactly, in three increments. A number beyond the three ends the run. -/
theorem solveNewton_linear_triple :
    letI : SeriesAngle := .exact
    let K : Square 3 ℝ := #v[#v[1, 7, 0], #v[2, 3, 4], #v[-1, 5, 1]]
    let m := Supplied.cubicModel K SystemVector.zero true
    ∃ its, its.length = 3 ∧ (∀ it ∈ its, it = 1 ∨ it = 2)
      ∧ (solveNewton m ⟨3, 0, 2, 4⟩ #v[2, 9, 3] [1, 1] ()).ending = .ok (#v[2, 0, 5], its)
      ∧ (solveNewton m ⟨3, 0, 2, 4⟩ #v[2, 9, 3] [1, 1] ()).events.countP Event.isCommit = 3
      ∧ (solveNewton m ⟨3, 0, 2, 4⟩ #v[2, 9, 3] [1, 3] ()).ending
        = .error (.fault .indexRange) := by
  let _ : SeriesAngle := .exact
  intro K m
  have hblock : freeBlock K [1, 1] = [[1, 0], [-1, 1]] := rfl
  have hcheck : checkCondition (freeBlock K [1, 1]) (4 : ℝ) = .ok () := by
    refine checkCondition_eq_ok_iff.mpr ⟨by decide, ?_, ?_⟩
    · rw [← det_freeBlock_ne_zero_iff, hblock, det_pair]
      exact one_ne_zero
    · rw [hblock]
      exact conditionNumber_pair
  have hlinear : IsLinear m K := cubicModel_isLinear K true
  have htolerance : 0 ≤ (⟨3, 0, 2, 4⟩ : Settings ℝ).tolerance := le_rfl
  have hsteps : 0 < (⟨3, 0, 2, 4⟩ : Settings ℝ).steps := three_pos
  obtain ⟨hreturns, -⟩ := solveNewton_linear hlinear htolerance hsteps le_rfl
    (by decide : ∀ i ∈ [(1 : Int), 1], 0 ≤ i) hcheck #v[2, 9, 3] ()
  obtain ⟨-, hbeyond⟩ := solveNewton_linear hlinear htolerance hsteps le_rfl
    (by decide : ∀ i ∈ [(1 : Int), 3], 0 ≤ i) hcheck #v[2, 9, 3] ()
  obtain ⟨d, its, hending, hlength, htwo, hcommits, hheld, hsmall, -⟩ := hreturns (by decide)
  have hzero : SystemVector.normList (unbalanced K #v[2, 9, 3] [1, 1] d) = 0 :=
    le_antisymm (hsmall.trans (zero_mul _).le) (Real.sqrt_nonneg _)
  have hbalanced := normList_unbalanced_eq_zero_iff.mp hzero
  have hforce (k : Fin 3) : (K.apply d).get k
      = (K.get k).get 0 * d.get 0 + (K.get k).get 1 * d.get 1 + (K.get k).get 2 * d.get 2 := by
    rw [get_apply, ← Fin.sum_univ_def, Fin.sum_univ_three]
  have hfixed : d.get 1 = 0 := hheld 1 (by decide)
  have hfirst : 1 * d.get 0 + 7 * d.get 1 + 0 * d.get 2 = 2 :=
    (hforce 0).symm.trans (hbalanced 0 (by decide))
  have hlast : -1 * d.get 0 + 5 * d.get 1 + 1 * d.get 2 = 3 :=
    (hforce 2).symm.trans (hbalanced 2 (by decide))
  have hd : d = #v[2, 0, 5] := by
    refine SystemVector.ext_get fun k => ?_
    fin_cases k
    · change d.get 0 = 2
      linarith
    · exact hfixed
    · change d.get 2 = 5
      linarith
  rw [hd] at hending
  exact ⟨its, hlength, htwo, hending, hcommits,
    congrArg Part.ending (hbeyond ⟨3, by decide, le_rfl⟩)⟩

omit [SeriesAngle] in
/-- **A number beyond the range is not passed over**: one component with a unit stiffness is not
solved where the list of the fixed components has the number after it, which the linear solve
ignores. -/
theorem solveNewton_refuses_beyond :
    letI : SeriesAngle := .exact
    let K : Square 1 ℝ := #v[#v[1]]
    let m := Supplied.cubicModel K SystemVector.zero true
    let settings : Settings ℝ := ⟨1, 0, 2, 1⟩
    IsLinear m K ∧ 0 ≤ settings.tolerance ∧ 1 ≤ settings.steps ∧ 2 ≤ settings.iterations
      ∧ (∀ i ∈ [(1 : Int)], 0 ≤ i)
      ∧ checkCondition (freeBlock K [1]) settings.conditionLimit = .ok ()
      ∧ ¬ ∃ result, (solveNewton m settings #v[1] [1] ()).ending = .ok result := by
  let _ : SeriesAngle := .exact
  intro K m settings
  have hcheck : checkCondition (freeBlock K [1]) (1 : ℝ) = .ok () := by
    have hblock : freeBlock K [1] = [[1]] := rfl
    unfold checkCondition
    rw [hblock, condition_one]
    exact if_neg fun h => lt_irrefl (1 : ℝ) (Scalar.lt_real.mp h)
  refine ⟨cubicModel_isLinear K true, le_rfl, le_rfl, le_rfl, by decide, hcheck, ?_⟩
  rintro ⟨result, hresult⟩
  have hrun : solveNewton m settings #v[1] [1] () = ⟨(), [], .error (.fault .indexRange)⟩ :=
    solveNewton_beyond m #v[1] one_pos List.mem_cons_self le_rfl ()
  rw [hrun] at hresult
  cases hresult

end Newton

end Corotation
