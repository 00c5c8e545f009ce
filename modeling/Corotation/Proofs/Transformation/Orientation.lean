import Corotation.Proofs.Transformation.Acceptance
import Corotation.Proofs.Transformation.Session
/-!
# The orientations of a run

The orientations of both nodes are versors after every run, the trial and the committed ones,
whatever the tolerances are and whichever operations were refused (`run_hasVersors`). They start
as the identity, or as the versor of some matrix, and are turned by versors after that. What an
evaluation finds has no part in it.
-/

namespace Corotation

namespace Transformation

variable [SeriesAngle] {ν : Type} {tol : Tolerances ℝ} {t t' : Transformation ν ℝ}

/-! ## What an operation does to the orientations -/

omit [SeriesAngle] in
/-- Only the orientations count. -/
theorem HasVersors.congr (h : HasVersors t) (hversor : t'.versor = t.versor)
    (hcommitted : t'.committedVersor = t.committedVersor) : HasVersors t' where
  trial_i := hversor ▸ h.trial_i
  trial_j := hversor ▸ h.trial_j
  committed_i := hcommitted ▸ h.committed_i
  committed_j := hcommitted ▸ h.committed_j

/-- An evaluation keeps them, whether it succeeds or not. -/
theorem HasVersors.evaluate (h : HasVersors t) (d : Ends (Displacement ℝ)) :
    HasVersors (t.evaluate tol d).state := by
  rcases evaluate_outcome tol t d with ⟨u, heq⟩ | ⟨triad, e, heq⟩
  · obtain ⟨_, _, -, -, -, rfl⟩ := evaluate_eq_ok_iff.mp heq
    rw [heq]
    exact h.congr rfl rfl
  · rw [heq]
    exact h.congr rfl rfl

/-- An update turns them by versors. -/
theorem HasVersors.update (h : HasVersors t) (trial : ν → Displacement ℝ) :
    HasVersors (t.update tol trial).state := by
  cases hbound : t.bound? with
  | error e =>
    unfold Transformation.update
    rw [hbound]
    exact h
  | ok nodes =>
    rw [update_of_bound hbound, advance_eq h, Outcome.ok_andThen]
    exact (h.moved _).evaluate _

omit [SeriesAngle] in
/-- A commit keeps the trial ones twice. -/
theorem HasVersors.commit (h : HasVersors t) : HasVersors t.commit.state := by
  unfold Transformation.commit
  cases t.bound? with
  | error e => exact h
  | ok nodes => exact h.snapshot

/-- A revert goes back to the committed ones. -/
theorem HasVersors.revert (h : HasVersors t) (trial : ν → Displacement ℝ) :
    HasVersors (t.revert tol trial).state := by
  unfold Transformation.revert
  cases t.bound? with
  | error e => exact h
  | ok nodes => exact (h.restore _).update trial

/-- A reset goes back to the versor of the reference, if it has one. -/
theorem HasVersors.reset (h : HasVersors t) (trial : ν → Displacement ℝ) :
    HasVersors (t.reset tol trial).state := by
  cases hbound : t.bound? with
  | error e =>
    unfold Transformation.reset
    rw [hbound]
    exact h
  | ok nodes =>
    cases hq : Versor.ofMatrix t.reference.axes with
    | error e =>
      unfold Transformation.reset
      simp only [hbound, hq]
      exact h.congr rfl rfl
    | ok q =>
      have hupdate : HasVersors ((t.backAtStart q).update tol trial).state :=
        (h.backAtStart (Versor.ofMatrix_square hq)).update trial
      rw [reset_of_bound hbound hq]
      unfold Outcome.andThen
      split
      · exact hupdate
      · exact hupdate.commit

/-- To make the frame starts both nodes at the versor of the reference, if it has one. -/
theorem HasVersors.settle (h : HasVersors t) : HasVersors (t.settle tol).state := by
  unfold Transformation.settle
  cases hq : Versor.ofMatrix t.reference.axes with
  | error e => exact h
  | ok q =>
    have hsquare := Versor.ofMatrix_square hq
    simp only
    split
    · exact ⟨hsquare, hsquare, h.committed_i, h.committed_j⟩
    · exact ⟨hsquare, hsquare, hsquare, hsquare⟩

/-- An attachment makes a frame, or changes nothing. -/
theorem HasVersors.attach (h : HasVersors t) (pair : List (Option (ν × Node ℝ))) :
    HasVersors (t.attach tol pair).state := by
  by_cases hpair : ∃ m n, pair = [some m, some n]
  · obtain ⟨⟨i, ni⟩, ⟨j, nj⟩, rfl⟩ := hpair
    cases href : referenceOf tol t.config ⟨ni.position, nj.position⟩ with
    | error e =>
      rw [attach_of_error href]
      exact h
    | ok r =>
      have hplaced : (t.placed ⟨i, j⟩ ⟨ni.trial, nj.trial⟩ r).HasVersors := by
        obtain ⟨capture, initial, hfound⟩ := t.lookForDisplacements_eq ⟨ni.trial, nj.trial⟩
        rw [placed, hfound]
        exact h.congr rfl rfl
      rw [(attach_of_reference (i := i) (j := j) href).1]
      exact hplaced.settle
  · rw [t.attach_of_not_pair fun m n heq => hpair ⟨m, n, heq⟩]
    exact h

end Transformation

namespace Session

variable [SeriesAngle] {ν : Type}

/-- **After every run the orientations are versors.** -/
theorem run_hasVersors (tol : Tolerances ℝ) (config : Configuration ℝ) (calls : List (Call ν ℝ)) :
    (run tol config calls).transformation.HasVersors := by
  unfold run
  induction calls using List.reverseRecOn with
  | nil =>
    have hidentity : (Versor.identity : Versor ℝ).square = 1 := by
      change (0 : ℝ) * 0 + 0 * 0 + 0 * 0 + 1 * 1 = 1
      norm_num
    exact ⟨hidentity, hidentity, hidentity, hidentity⟩
  | append_singleton calls c ih =>
    rw [List.foldl_append]
    change (c.perform tol _).state.HasVersors
    cases c with
    | attach pair => exact ih.attach pair
    | update trial => exact ih.update trial
    | commit => exact ih.commit
    | revert trial => exact ih.revert trial
    | reset trial => exact ih.reset trial

end Session

end Corotation
