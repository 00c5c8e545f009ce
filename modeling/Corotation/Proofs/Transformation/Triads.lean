import Corotation.Proofs.Element.Formation
import Corotation.Proofs.Transformation.Acceptance
import Corotation.Proofs.Transformation.Currency
/-!
# The triads of a run

A transformation forms its triad in two places: in an attachment from the reference chord, and in
an evaluation from the deformed one. Both are calls on the triad that it has, and a refused one
leaves that triad as it is (`settle_triad`, `evaluate_triad`). So in every run, whichever of its
operations were refused, the triad has gone through some sequence of such calls (`run_triad`).
Over the real numbers it is then either not formed yet, or one whose linearization is defined
(`run_hasLinearization`).
-/

namespace Corotation

namespace Transformation

variable {ν α : Type} [Scalar α] {tol : Tolerances α} {t t' t'' : Transformation ν α}

/-! ## The two places -/

open Scalar in
/-- **An evaluation is a call** with the present orientations and the chord at them. -/
theorem evaluate_triad (tol : Tolerances α) (t : Transformation ν α)
    (d : Ends (Displacement α)) : (t.evaluate tol d).state.triad
      = ((Formation.update t.nodalRotation (t.chordAt d)).perform tol t.triad).state := by
  unfold evaluate Formation.perform Formation.triad
  by_cases hlength : (t.chordAt d).norm ≤ 0
  · have htriad : Triad.ofRotations tol t.nodalRotation (t.chordAt d)
        = .error (.degenerate .collapsedChord) := by
      unfold Triad.ofRotations Triad.ofAxes
      exact if_pos hlength
    unfold chordAt at hlength
    simp only [htriad, if_pos hlength]
    rfl
  · unfold chordAt at hlength ⊢
    simp only [if_neg hlength]
    cases Triad.ofRotations tol t.nodalRotation (t.chordOf d (t.armsOf t.nodalRotation)) with
    | error e => rfl
    | ok triad =>
      simp only
      cases localRotations triad.axes t.nodalRotation <;> rfl

/-- **To make the frame is a call** with the reference geometry. -/
theorem settle_triad {q : Versor α} (hq : Versor.ofMatrix t.reference.axes = .ok q) :
    (t.settle tol).state.triad
      = ((Formation.start t.reference.chord t.reference.axes).perform tol t.triad).state := by
  unfold settle Formation.perform Formation.triad
  simp only [hq, start]
  cases Triad.ofReference tol t.reference.chord t.reference.axes <;> rfl

/-! ## What an operation does to the triad -/

/-- The triad of the second state comes from that of the first by a sequence of calls. -/
def Reforms (tol : Tolerances α) (t t' : Transformation ν α) : Prop :=
  ∃ calls, t'.triad = Formation.runFrom tol t.triad calls

/-- With the same triad there is no call. -/
theorem Reforms.of_eq (h : t'.triad = t.triad) : Reforms tol t t' := ⟨[], h⟩

theorem Reforms.trans (h : Reforms tol t t') (h' : Reforms tol t' t'') : Reforms tol t t'' := by
  obtain ⟨calls, h⟩ := h
  obtain ⟨calls', h'⟩ := h'
  refine ⟨calls ++ calls', ?_⟩
  rw [h', h, Formation.runFrom, Formation.runFrom, Formation.runFrom, List.foldl_append]

/-- Nothing but the triad of the first state counts. -/
theorem Reforms.congr (h : Reforms tol t t'') (ht : t.triad = t'.triad) : Reforms tol t' t'' := by
  unfold Reforms at h ⊢
  rwa [← ht]

theorem evaluate_reforms (tol : Tolerances α) (t : Transformation ν α)
    (d : Ends (Displacement α)) : Reforms tol t (t.evaluate tol d).state :=
  ⟨[.update t.nodalRotation (t.chordAt d)], evaluate_triad tol t d⟩

theorem update_reforms (tol : Tolerances α) (t : Transformation ν α)
    (trial : ν → Displacement α) : Reforms tol t (t.update tol trial).state := by
  cases hbound : t.bound? with
  | error e =>
    unfold update
    rw [hbound]
    exact .of_eq rfl
  | ok nodes =>
    rw [update_of_bound hbound]
    -- only the evaluation forms a triad; an update whose turn is refused does not get to it
    rcases advance_outcome { t with stage := .initialized }
      ((t.displacement (nodes.map trial)).map Screw.rot) with ⟨q, heq⟩ | ⟨seen, q, e, heq⟩
    · rw [heq, Outcome.ok_andThen]
      exact (evaluate_reforms tol _ _).congr rfl
    · rw [heq, Outcome.fail_andThen]
      exact .of_eq rfl

omit [Scalar α] in
theorem commit_triad (t : Transformation ν α) : t.commit.state.triad = t.triad := by
  unfold commit
  cases t.bound? <;> rfl

theorem revert_reforms (tol : Tolerances α) (t : Transformation ν α)
    (trial : ν → Displacement α) : Reforms tol t (t.revert tol trial).state := by
  unfold revert
  cases t.bound? with
  | error e => exact .of_eq rfl
  | ok nodes => exact (update_reforms tol (t.restore (nodes.map trial)) trial).congr rfl

theorem reset_reforms (tol : Tolerances α) (t : Transformation ν α)
    (trial : ν → Displacement α) : Reforms tol t (t.reset tol trial).state := by
  cases hbound : t.bound? with
  | error e =>
    unfold reset
    rw [hbound]
    exact .of_eq rfl
  | ok nodes =>
    cases hq : Versor.ofMatrix t.reference.axes with
    | error e =>
      unfold reset
      simp only [hbound, hq]
      exact .of_eq rfl
    | ok q =>
      have hupdate : Reforms tol t ((t.backAtStart q).update tol trial).state :=
        (update_reforms tol (t.backAtStart q) trial).congr rfl
      rw [reset_of_bound hbound hq]
      unfold Outcome.andThen
      split
      · exact hupdate
      · exact hupdate.trans (.of_eq (commit_triad _))

theorem settle_reforms (tol : Tolerances α) (t : Transformation ν α) :
    Reforms tol t (t.settle tol).state := by
  cases hq : Versor.ofMatrix t.reference.axes with
  | error e =>
    unfold settle
    rw [hq]
    exact .of_eq rfl
  | ok q => exact ⟨[.start t.reference.chord t.reference.axes], settle_triad hq⟩

theorem attach_reforms (tol : Tolerances α) (t : Transformation ν α)
    (pair : List (Option (ν × Node α))) : Reforms tol t (t.attach tol pair).state := by
  by_cases hpair : ∃ m n, pair = [some m, some n]
  · obtain ⟨⟨i, ni⟩, ⟨j, nj⟩, rfl⟩ := hpair
    cases href : referenceOf tol t.config ⟨ni.position, nj.position⟩ with
    | error e =>
      rw [attach_of_error href]
      exact .of_eq rfl
    | ok r =>
      have hplaced : (t.placed ⟨i, j⟩ ⟨ni.trial, nj.trial⟩ r).triad = t.triad := by
        obtain ⟨capture, initial, hfound⟩ := t.lookForDisplacements_eq ⟨ni.trial, nj.trial⟩
        rw [placed, hfound]
        rfl
      rw [(attach_of_reference (i := i) (j := j) href).1]
      exact (settle_reforms tol _).congr hplaced
  · rw [t.attach_of_not_pair fun m n heq => hpair ⟨m, n, heq⟩]
    exact .of_eq rfl

end Transformation

/-- **Every operation** takes the triad through a sequence of calls, most often of one or of
none. -/
theorem Call.perform_reforms {ν α : Type} [Scalar α] (tol : Tolerances α)
    (t : Transformation ν α) (c : Call ν α) : t.Reforms tol (c.perform tol t).state := by
  cases c with
  | attach pair => exact t.attach_reforms tol pair
  | update trial => exact t.update_reforms tol trial
  | commit => exact .of_eq t.commit_triad
  | revert trial => exact t.revert_reforms tol trial
  | reset trial => exact t.reset_reforms tol trial

namespace Session

/-- **After every run the triad is the one of some sequence of calls.** -/
theorem run_triad {ν α : Type} [Scalar α] (tol : Tolerances α) (config : Configuration α)
    (calls : List (Call ν α)) :
    ∃ formations, (run tol config calls).transformation.triad = Formation.run tol formations := by
  suffices (Transformation.ofConfiguration config).Reforms tol (run tol config calls).transformation
    from this
  induction calls using List.reverseRecOn with
  | nil => exact .of_eq rfl
  | append_singleton calls c ih =>
    rw [run_append]
    exact ih.trans (c.perform_reforms tol _)

/-- **After every run the linearization of the triad is defined**, once there is a triad. -/
theorem run_hasLinearization [SeriesAngle] {ν : Type} {tol : Tolerances ℝ}
    (h0 : 0 ≤ tol.parallel) (config : Configuration ℝ) (calls : List (Call ν ℝ)) :
    (run tol config calls).transformation.triad = .unset
      ∨ (run tol config calls).transformation.triad.HasLinearization := by
  obtain ⟨formations, hrun⟩ := run_triad tol config calls
  rw [hrun]
  by_cases h : ∃ c ∈ formations, c.IsAccepted tol
  · obtain ⟨_, c, _, -, -, -, htriad⟩ := Formation.run_eq_latest formations h
    exact .inr ((Formation.forms_of_triad h0 htriad).isFrame h0).hasLinearization
  · exact .inl (Formation.run_eq_unset formations fun c hc hc' => h ⟨c, hc, hc'⟩)

end Session

end Corotation
