import Corotation.Proofs.System.Linear
/-!
# A bar

A bar of length one lies along a line and is as stiff as it is long. It resists being stretched
like a matrix (`stiffness`), up to where its ends meet: there it has no direction and does not
answer. It remembers the displacement at which it was evaluated last and the one committed last.

With one end supported, an increment that starts from another displacement is accepted in two
iterations (`loadStep_eq`), unless the load pushes the ends together (`loadStep_collapse`).
-/

namespace Corotation

open Newton

/-- A bar. -/
structure Bar where
  /-- The displacement of its ends at the last evaluation. -/
  trial : Vector ℝ 2
  /-- The displacement of its ends at the last commit. -/
  committed : Vector ℝ 2

namespace Bar

variable [SeriesAngle]

/-- The stiffness of the bar. -/
def stiffness : Square 2 ℝ := #v[#v[1, -1], #v[-1, 1]]

/-- The bar with its first end at the origin and the other one displaced by `x`. -/
def stretched (x : ℝ) : Vector ℝ 2 := #v[0, x]

/-- The bar before anything was done to it. -/
def rest : Bar := ⟨stretched 0, stretched 0⟩

/-- What the bar is longer by than at rest. -/
noncomputable def elongation (d : Vector ℝ 2) : ℝ := SystemVector.dot #v[-1, 1] d

/-- The bar taken back to the displacement committed last. -/
def revert (b : Bar) : Outcome ℝ Bar Unit := .ok { b with trial := b.committed } ()

/-- The bar as a model for the iteration. -/
noncomputable def model : Model Bar 2 ℝ where
  respond d b :=
    if 1 + elongation d = 0 then
      .fail { b with trial := d } (.degenerate .collapsedChord)
    else .ok { b with trial := d } ⟨stiffness, stiffness.apply d⟩
  commit? := some fun b => .ok { b with committed := b.trial } ()
  revert? := some revert

/-- So many increments, in which nothing but a zero residual counts as converged. The block of the
free end has the condition number one. -/
def settings (steps : Nat) (iterations : Int) : Settings ℝ := ⟨steps, 0, iterations, 1⟩

/-! ## Evaluations -/

theorem elongation_stretched (x : ℝ) : elongation (stretched x) = x := by
  change SystemVector.dotList [-1, 1] [0, x] = x
  rw [dotList_cons, dotList_cons, dotList_nil]
  ring

/-- A bar with a length answers as its stiffness does. -/
theorem answersBy {x : ℝ} (hx : 1 + x ≠ 0) (b : Bar) :
    AnswersBy model stiffness (stretched x) b := by
  unfold AnswersBy
  simp only [model, elongation_stretched, if_neg hx]
  rfl

/-- A bar without a length does not. -/
theorem respond_collapsed (b : Bar) : model.respond (stretched (-1)) b
    = .fail { b with trial := stretched (-1) } (.degenerate .collapsedChord) := by
  have hlength : (1 : ℝ) + -1 = 0 := add_neg_cancel 1
  simp only [model, elongation_stretched, if_pos hlength]

/-- An evaluation remembers the displacement. -/
theorem respond_state (d : Vector ℝ 2) (b : Bar) :
    (model.respond d b).state = { b with trial := d } := by
  simp only [model]
  split <;> rfl

/-- It leaves no remarks. -/
theorem evaluation_eq (d : Vector ℝ 2) (b : Bar) : evaluation model d b = [.evaluated d] := by
  have hnotices : (model.respond d b).notices = [] := by
    simp only [model]
    split <;> rfl
  rw [evaluation, hnotices]
  rfl

/-- No function of the bar fails because an increment has not converged. -/
theorem not_fails (event : Event 2 ℝ) (b : Bar) (c : Divergence ℝ) :
    ¬ event.Fails model b (.divergence c) := by
  cases event with
  | evaluated d =>
    intro h
    simp only [Event.Fails, model] at h
    split at h <;> cases h
  | remarked notice => exact id
  | committed =>
    rintro ⟨hook, hhook, h⟩
    obtain rfl := Option.some.inj hhook
    cases h
  | reverted =>
    rintro ⟨hook, hhook, h⟩
    obtain rfl := Option.some.inj hhook
    cases h

/-! ## Corrections -/

/-- The force at the second end is what the bar is stretched by. -/
theorem apply_stretched (x : ℝ) : (stiffness.apply (stretched x)).get 1 = x := by
  rw [get_apply]
  change -1 * 0 + (1 * x + 0) = x
  ring

/-- The block of the free end is accepted. -/
theorem checkCondition_stiffness : checkCondition (freeBlock stiffness [0]) (1 : ℝ) = .ok () := by
  have hblock : freeBlock stiffness [0] = [[1]] := rfl
  rw [hblock, checkCondition, condition_one]
  exact if_neg fun h => lt_irrefl _ (Scalar.lt_real.mp h)

variable {steps step : Nat} {iterations : Int} {f x y : ℝ}

/-- The increment with a given number, for a pull at the second end. -/
theorem increment_eq (steps : Nat) (iterations : Int) (f : ℝ) (step : Nat) :
    increment (settings steps iterations) (stretched f) [0] step
      = .ok ((settings steps iterations).incrementAt (stretched f) [0] [0] step) :=
  increment_eq_ok_iff.mpr ⟨[0], rfl, rfl⟩

/-- The pull in the increment with a given number. -/
noncomputable def pull (steps : Nat) (f : ℝ) (step : Nat) : ℝ :=
  Scalar.ofNat step / Scalar.ofNat steps * f

/-- **The residual** is the pull that the bar does not resist. -/
theorem residual_stretched (x : ℝ) :
    ((settings steps iterations).incrementAt (stretched f) [0] [0] step).residual
        ⟨stiffness, stiffness.apply (stretched x)⟩ = stretched (pull steps f step - x) := by
  refine SystemVector.ext_get fun k => ?_
  rw [Increment.get_residual]
  fin_cases k
  · rfl
  · have hfree : (1 : Fin 2) ∉ [0] := by decide
    have hload : ((settings steps iterations).incrementAt (stretched f) [0] [0] step).load.get 1
        = pull steps f step := SystemVector.get_scale _ _ 1
    exact (if_neg hfree).trans (congrArg₂ (· - ·) hload (apply_stretched x))

/-- **A correction** stretches the bar to where it resists the pull. -/
theorem exists_correction (steps : Nat) (iterations : Int) (f : ℝ) (step : Nat) (x : ℝ) :
    ∃ correction,
      ((settings steps iterations).incrementAt (stretched f) [0] [0] step).correction
          ⟨stiffness, stiffness.apply (stretched x)⟩ = .ok correction
        ∧ SystemVector.add (stretched x) correction.displacement
          = stretched (pull steps f step) := by
  set y := pull steps f step with hy
  obtain ⟨correction, hcorrection⟩ :=
    exists_solveLinear checkCondition_stiffness (stretched (y - x))
  have hbalanced : IsBalancedBy stiffness (stretched (y - x)) [0] (stretched (y - x)) := by
    constructor
    · intro k hk
      fin_cases k
      · rfl
      · cases List.mem_singleton.mp hk
    · intro k hk
      fin_cases k
      · exact absurd List.mem_cons_self hk
      · exact apply_stretched _
  refine ⟨correction, ?_, ?_⟩
  · rw [Increment.correction, residual_stretched, ← hy]
    exact hcorrection
  · rw [← solveLinear_unique hcorrection hbalanced]
    refine SystemVector.ext_get fun k => ?_
    rw [SystemVector.get_add]
    fin_cases k
    · exact add_zero _
    · exact add_sub_cancel x y

/-! ## Increments -/

/-- Only a zero residual counts as converged. -/
theorem tolerance_eq_zero :
    ((settings steps iterations).incrementAt (stretched f) [0] [0] step).tolerance = 0 := zero_mul _

/-- A bar that does not resist the pull misses it. -/
theorem misses (hx : 1 + x ≠ 0) (hpull : pull steps f step ≠ x) (b : Bar) :
    Misses model ((settings steps iterations).incrementAt (stretched f) [0] [0] step)
      (stretched x) b ⟨stiffness, stiffness.apply (stretched x)⟩ := by
  refine ⟨answersBy hx b, fun hsmall => hpull ?_⟩
  rw [residual_stretched, tolerance_eq_zero, Scalar.le_real,
    SystemVector.norm_le_zero_iff] at hsmall
  exact sub_eq_zero.mp (congrArg (fun v => v.get 1) hsmall)

/-- **A bar is pulled** to where it resists the load of the increment. -/
theorem loadStep_eq (hiterations : 2 ≤ iterations) (hx : 1 + x ≠ 0)
    (hy : pull steps f step = y) (hy' : 1 + y ≠ 0) (hne : y ≠ x) (b : Bar) :
    loadStep model (settings steps iterations) (stretched f) [0] step (stretched x) b
      = ⟨⟨stretched y, stretched y⟩,
        [.evaluated (stretched x), .evaluated (stretched y), .committed,
          .remarked (.converged step steps 2)], .ok (stretched y, 2)⟩ := by
  subst hy
  obtain ⟨correction, hcorrection, hadd⟩ := exists_correction steps iterations f step x
  have hstep := loadStep_of_correction (increment_eq steps iterations f step) le_rfl hiterations
    (misses hx hne b) hcorrection hadd (respond_state _ b) (answersBy hy' _) rfl rfl
  rw [hstep, evaluation_eq, evaluation_eq, respond_state]
  rfl

/-- **A bar that the load pushes together** leaves its increment without an answer. -/
theorem loadStep_collapse (hiterations : 2 ≤ iterations) (hx : 1 + x ≠ 0)
    (hy : pull steps f step = -1) (b : Bar) :
    loadStep model (settings steps iterations) (stretched f) [0] step (stretched x) b
      = ⟨{ b with trial := stretched (-1) },
        [.evaluated (stretched x), .evaluated (stretched (-1))],
        .error (.degenerate .collapsedChord)⟩ := by
  obtain ⟨correction, hcorrection, hadd⟩ := exists_correction steps iterations f step x
  obtain ⟨budget, hbudget⟩ : ∃ budget, iterations.toNat = budget + 1 + 1 :=
    ⟨iterations.toNat - 2, by omega⟩
  refine loadStep_of_failed (increment_eq steps iterations f step) ?_
  have hne : pull steps f step ≠ x := fun heq => hx (by rw [← heq, hy, add_neg_cancel])
  change iterate model _ iterations.toNat 1 _ none b = _
  rw [hbudget, iterate_of_misses (misses hx hne b), hcorrection]
  simp only [hadd, hy, respond_state]
  have hrefused : (model.respond (stretched (-1)) { b with trial := stretched x }).result
      = .error (.degenerate .collapsedChord) := by rw [respond_collapsed]; rfl
  rw [iterate_of_error hrefused, evaluation_eq, evaluation_eq, respond_state]
  rfl

/-! ## Runs -/

/-- Pulled by nothing the bar is not stretched. -/
theorem stretched_pull_zero : stretched (pull steps f 0) = SystemVector.zero := by
  have hzero : pull steps f 0 = 0 := by
    rw [pull, Scalar.ofNat_real, Nat.cast_zero, zero_div, zero_mul]
  rw [hzero]
  rfl

/-- In the last increment it is pulled by the whole load. -/
theorem pull_last (hsteps : 0 < steps) : pull steps f steps = f := by
  rw [pull, Scalar.ofNat_real, div_self (Nat.cast_pos.mpr hsteps).ne', one_mul]

/-- It is pulled more in every increment. -/
theorem pull_lt_succ (hsteps : 0 < steps) (hf : 0 < f) (step : Nat) :
    pull steps f step < pull steps f (step + 1) := by
  have hpos : (0 : ℝ) < steps := Nat.cast_pos.mpr hsteps
  rw [pull, pull, Scalar.ofNat_real, Scalar.ofNat_real, Scalar.ofNat_real, Nat.cast_add_one]
  gcongr
  exact lt_add_one _

/-- It is never pushed. -/
theorem pull_nonneg (hf : 0 < f) (step : Nat) : 0 ≤ pull steps f step := by
  rw [pull, Scalar.ofNat_real, Scalar.ofNat_real]
  positivity

/-- The increments of a bar that is pulled each take two iterations. -/
theorem loadSteps_pulled (hsteps : 0 < steps) (hf : 0 < f) (hiterations : 2 ≤ iterations)
    (remaining step : Nat) (b : Bar) :
    (loadSteps model (settings steps iterations) (stretched f) [0] remaining (step + 1)
        (stretched (pull steps f step)) b).ending
      = .ok (stretched (pull steps f (step + remaining)), List.replicate remaining 2) := by
  -- on the increments that remain: each starts where the one before has come to, below its load
  induction remaining generalizing step b with
  | zero => rfl
  | succ remaining ih =>
    have hx : 1 + pull steps f step ≠ 0 := (add_pos_of_pos_of_nonneg one_pos (pull_nonneg hf _)).ne'
    have hy : 1 + pull steps f (step + 1) ≠ 0 :=
      (add_pos_of_pos_of_nonneg one_pos (pull_nonneg hf _)).ne'
    have hstep := loadStep_eq hiterations hx rfl hy (pull_lt_succ hsteps hf step).ne' b
    have hcount : step + (remaining + 1) = step + 1 + remaining := by omega
    rw [hcount, loadSteps_of_ok (congrArg Part.ending hstep), hstep, ih]
    rfl

/-- **A bar that is pulled** comes to where it resists the load, two iterations an increment. -/
theorem solveNewton_pulled (hsteps : 0 < steps) (hf : 0 < f) (hiterations : 2 ≤ iterations)
    (b : Bar) : (solveNewton model (settings steps iterations) (stretched f) [0] b).ending
      = .ok (stretched f, List.replicate steps 2) := by
  have hrun := loadSteps_pulled hsteps hf hiterations steps 0 b
  rwa [stretched_pull_zero, Nat.zero_add, Nat.zero_add, pull_last hsteps] at hrun

/-- **A bar that is given no iteration** is given up at once. -/
theorem solveNewton_exhausted (steps : Nat) (f : ℝ) (b : Bar) :
    solveNewton model (settings (steps + 1) 0) (stretched f) [0] b
      = ⟨{ b with trial := b.committed }, [.reverted],
        .error (.divergence (.notConverged 1 0 none 0))⟩ := by
  have hstep : loadStep model (settings (steps + 1) 0) (stretched f) [0] 1 SystemVector.zero b
      = ⟨{ b with trial := b.committed }, [.reverted],
        .error (.divergence (.notConverged 1 0 none 0))⟩ := by
    simp only [loadStep, increment_eq, tolerance_eq_zero]
    rfl
  exact (loadSteps_of_error (congrArg Part.ending hstep) steps).trans (by rw [hstep])

/-- **A bar that the load pushes together** leaves the run without an answer. -/
theorem solveNewton_collapse (hiterations : 2 ≤ iterations) (b : Bar) :
    solveNewton model (settings 1 iterations) (stretched (-1)) [0] b
      = ⟨{ b with trial := stretched (-1) },
        [.evaluated (stretched 0), .evaluated (stretched (-1))],
        .error (.degenerate .collapsedChord)⟩ := by
  have hx : (1 : ℝ) + 0 ≠ 0 := by rw [add_zero]; exact one_ne_zero
  have hstep := loadStep_collapse hiterations hx (pull_last one_pos) b
  exact (loadSteps_of_error (congrArg Part.ending hstep) 0).trans (by rw [hstep])

end Bar

end Corotation
