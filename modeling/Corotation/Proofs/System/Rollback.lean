import Corotation.Proofs.System.Bar
/-!
# What becomes of a failing run

A run that fails was given up or interrupted. It is given up where the iterations of an increment
have run out or a tangent is singular: then the model is reverted, once and last (`GivenUp`). It
is interrupted where a call fails: the model does not answer, the linear solve has no
decomposition, the model cannot be committed. Then nothing more is done, and the model stays
where that call has left it (`Interrupted`). So a failing run is rolled back unless it was
interrupted (`solveNewton_rolledBack_iff`); a bar that collapses on the way is not.
-/

namespace Corotation

/-- The load step that was given up. -/
def Divergence.step {α : Type} : Divergence α → Nat
  | singularTangent step _ _ => step
  | notConverged step _ _ _ => step

namespace Newton

variable {σ α : Type} {n : Nat}

/-! ## Given up -/

/-- **A run that was given up** after `k` accepted increments, in the state `s`, with the cause
`e`: the model was reverted, once and last, if it can be. The cause is that of the increment, or
that of a revert that failed. -/
structure GivenUp (m : Model σ n α) (s₀ : σ) (k : Nat) (s : σ) (events : List (Event n α))
    (e : Failure α) : Prop where
  state : s = replay m s₀ events
  commits : events.countP Event.isCommit = if m.commit?.isSome then k else 0
  reverted : ∀ hook, m.revert? = some hook → ∃ before, before.countP Event.isRevert = 0
    ∧ events = before ++ .reverted :: (hook (replay m s₀ before)).notices.map .remarked
    ∧ ((hook (replay m s₀ before)).result = .error e
      ∨ (hook (replay m s₀ before)).result = .ok () ∧ ∃ c, e = .divergence c ∧ c.step = k + 1)
  kept : m.revert? = none →
    events.countP Event.isRevert = 0 ∧ ∃ c, e = .divergence c ∧ c.step = k + 1

/-- **What has happened up to the state `s`**, with `k` commits and no revert so far. -/
structure Underway (m : Model σ n α) (s₀ : σ) (k : Nat) (s : σ) (events : List (Event n α)) :
    Prop where
  replayed : replay m s₀ events = s
  commits : events.countP Event.isCommit = if m.commit?.isSome then k else 0
  reverts : events.countP Event.isRevert = 0

variable {m : Model σ n α} {s₀ s : σ} {k : Nat} {events : List (Event n α)}

/-- An evaluation more changes nothing in that. -/
theorem Underway.evaluate (h : Underway m s₀ k s events) (d : Vector α n) :
    Underway m s₀ k (m.respond d s).state (events ++ evaluation m d s) where
  replayed := by rw [replay_append, h.replayed, replay_evaluation]
  commits := by rw [List.countP_append, h.commits, countP_isCommit_evaluation, add_zero]
  reverts := by rw [List.countP_append, h.reverts, countP_isRevert_evaluation]

/-- To give up after what has happened is to give up a run. -/
theorem Underway.giveUp (h : Underway m s₀ k s events) {c : Divergence α} (hc : c.step = k + 1)
    {rest : Part σ n α (Failure α)} (hrest : giveUp m (.divergence c) s = rest) :
    GivenUp m s₀ k rest.state (events ++ rest.events) rest.ending := by
  obtain rfl := h.replayed
  rw [giveUp_eq] at hrest
  have hcall : (call m.revert? (Event.reverted (n := n)) (replay m s₀ events)).events.countP
      Event.isCommit = 0 := by
    rw [countP_call Event.isCommit fun _ => rfl]
    simp [Event.isCommit]
  subst hrest
  constructor
  · rw [replay_append, replay_call rfl]
  · rw [List.countP_append, h.commits, hcall, add_zero]
  · intro hook hhook
    refine ⟨events, h.reverts, ?_, ?_⟩
    · simp only [hhook]
      rfl
    · simp only [hhook, call]
      cases (hook (replay m s₀ events)).result with
      | error e => exact .inl rfl
      | ok _ => exact .inr ⟨rfl, c, rfl, hc⟩
  · intro hnone
    refine ⟨?_, c, ?_, hc⟩
    · simp only [hnone, call, List.append_nil, h.reverts]
    · simp only [hnone, call]

/-! ## Interrupted -/

variable [Scalar α] [Conditioned α]

/-- **A run that was interrupted** by the failure `e`, and not reverted. -/
inductive Interrupted (m : Model σ n α) (fixed : List Int) (s₀ : σ) :
    List (Event n α) → Failure α → Prop
  /-- Before anything happened: a fixed component is not one that the system has. -/
  | unnamed {e : Failure α} : resolve n fixed = .error e → Interrupted m fixed s₀ [] e
  /-- The model did not answer. -/
  | unanswered {before : List (Event n α)} {d : Vector α n} {e : Failure α} :
      before.countP Event.isRevert = 0 → (m.respond d (replay m s₀ before)).result = .error e →
      Interrupted m fixed s₀ (before ++ evaluation m d (replay m s₀ before)) e
  /-- The linear solve with the tangent has failed, not because it is singular. -/
  | unsolved {before : List (Event n α)} {d residual : Vector α n} {response : Response n α}
      {limit : α} {e : Failure α} :
      before.countP Event.isRevert = 0 → (m.respond d (replay m s₀ before)).result = .ok response →
      solveLinear response.tangent residual fixed limit = .error e → e = .fault .decomposition →
      Interrupted m fixed s₀ (before ++ evaluation m d (replay m s₀ before)) e
  /-- The model could not be committed. -/
  | uncommitted {before : List (Event n α)} {hook : σ → Outcome α σ Unit} {e : Failure α} :
      before.countP Event.isRevert = 0 → m.commit? = some hook →
      (hook (replay m s₀ before)).result = .error e →
      Interrupted m fixed s₀
        (before ++ .committed :: (hook (replay m s₀ before)).notices.map .remarked) e

variable {settings : Settings α} {F : Vector α n} {fixed : List Int} {e : Failure α}

/-- An interrupted run was not reverted. -/
theorem Interrupted.countP_isRevert (h : Interrupted m fixed s₀ events e) :
    events.countP Event.isRevert = 0 := by
  cases h with
  | unnamed _ => rfl
  | unanswered hbefore _ => rw [List.countP_append, hbefore, countP_isRevert_evaluation]
  | unsolved hbefore _ _ _ => rw [List.countP_append, hbefore, countP_isRevert_evaluation]
  | uncommitted hbefore _ _ =>
    rw [List.countP_append, hbefore, List.countP_cons_of_neg Bool.false_ne_true,
      countP_remarks _ fun _ => rfl]

/-- A commit that fails after what has happened interrupts a run. -/
theorem Underway.interrupted (h : Underway m s₀ k s events)
    {done : Part σ n α (Except (Failure α) Unit)} (hdone : call m.commit? .committed s = done)
    (hfailed : done.ending = .error e) : done.state = replay m s₀ (events ++ done.events)
      ∧ Interrupted m fixed s₀ (events ++ done.events) e := by
  obtain rfl := h.replayed
  subst hdone
  refine ⟨by rw [replay_append, replay_call rfl], ?_⟩
  cases hcommit : m.commit? with
  | none =>
    rw [hcommit] at hfailed
    cases hfailed
  | some hook =>
    rw [hcommit] at hfailed
    exact .uncommitted h.reverts hcommit hfailed

/-! ## Every failing run -/

/-- Where the fixed components are not ones that the system has no increment is accepted. -/
theorem Course.of_error {k : Nat} {d : Vector α n} {s : σ} {its : List Nat}
    (h : Course m settings F fixed s₀ k d s events its) (he : resolve n fixed = .error e) :
    s = s₀ ∧ events = [] := by
  cases h with
  | start => exact ⟨rfl, rfl⟩
  | accept _ hlast =>
    obtain ⟨inc, _, _, _, hinc, -⟩ := loadStep_accepted hlast
    cases hinc.symm.trans (increment_eq_error_iff.mpr he)

/-- An approach more changes nothing in what has happened. -/
theorem Underway.approach {inc : Increment n α} {k' : Nat} {d d' : Vector α n} {s' : σ}
    {events' : List (Event n α)} (h : Underway m s₀ k s events)
    (happroach : Approach m inc d s k' d' s' events') :
    Underway m s₀ k s' (events ++ events') where
  replayed := by rw [replay_append, h.replayed, happroach.replay_eq]
  commits := by rw [List.countP_append, h.commits, happroach.countP_isCommit, add_zero]
  reverts := by rw [List.countP_append, h.reverts, happroach.countP_isRevert]

/-- **An increment that is not accepted** after what has happened gives the run up or interrupts
it. -/
theorem Underway.loadStep_failed {d : Vector α n} {inc : Increment n α}
    (h : Underway m s₀ k s events) (hinc : increment settings F fixed (k + 1) = .ok inc) :
    let last := loadStep m settings F fixed (k + 1) d s
    last.ending = .error e →
      last.state = replay m s₀ (events ++ last.events)
        ∧ (GivenUp m s₀ k last.state (events ++ last.events) e
          ∨ Interrupted m fixed s₀ (events ++ last.events) e) := by
  intro last hlast
  have hfixed : inc.fixed = fixed := by
    obtain ⟨held, -, rfl⟩ := increment_eq_ok_iff.mp hinc
    rfl
  obtain ⟨k', d', s', events', happroach, hends⟩ := loadStep_ends m hinc d s
  -- up to the end of the approach, and up to the end of its last evaluation
  have happroached := h.approach happroach
  have hevaluated := happroached.evaluate d'
  change StepEnds m settings inc (k + 1) k' d' s' events' last at hends
  clear_value last
  cases hends with
  | accepted => cases hlast
  | uncommitted _ _ hdone hfailed =>
    obtain rfl := Except.error.inj hlast
    obtain ⟨hstate, hinterrupted⟩ := hevaluated.interrupted hdone hfailed
    simp only [List.append_assoc] at hstate hinterrupted ⊢
    exact ⟨hstate, .inr hinterrupted⟩
  | exhausted _ hrest =>
    obtain rfl := Except.error.inj hlast
    have hgivenUp := happroached.giveUp rfl hrest
    rw [List.append_assoc] at hgivenUp
    exact ⟨hgivenUp.state, .inl hgivenUp⟩
  | singular _ _ _ hrest =>
    obtain rfl := Except.error.inj hlast
    have hgivenUp := hevaluated.giveUp rfl hrest
    simp only [List.append_assoc] at hgivenUp ⊢
    exact ⟨hgivenUp.state, .inl hgivenUp⟩
  | unsolved _ hmisses hcorrection hother =>
    obtain rfl := Except.error.inj hlast
    have hdecomposition := (solveLinear_eq_error hcorrection).resolve_left fun h => hother _ h
    rw [Increment.correction, hfixed] at hcorrection
    simp only [← List.append_assoc]
    refine ⟨hevaluated.replayed.symm, .inr ?_⟩
    obtain rfl := happroached.replayed
    exact .unsolved happroached.reverts hmisses.answers hcorrection hdecomposition
  | unanswered _ hresult =>
    obtain rfl := Except.error.inj hlast
    simp only [← List.append_assoc]
    refine ⟨hevaluated.replayed.symm, .inr ?_⟩
    obtain rfl := happroached.replayed
    exact .unanswered happroached.reverts hresult

/-- **A failing run** was given up or interrupted. -/
theorem solveNewton_failed {s : σ} (h : (solveNewton m settings F fixed s).ending = .error e) :
    let run := solveNewton m settings F fixed s
    run.state = replay m s run.events
      ∧ ((∃ k < settings.steps, GivenUp m s k run.state run.events e)
        ∨ Interrupted m fixed s run.events e) := by
  intro run
  rcases solveNewton_cases m settings F fixed s with ⟨d, its, hok, -⟩ |
    ⟨k, d, s', events, its, e', hk, hcourse, hlast, hending, hstate, hevents⟩
  · cases h.symm.trans hok
  obtain rfl := Except.error.inj (h.symm.trans hending)
  cases hinc : increment settings F fixed (k + 1) with
  | error e' =>
    have hresolve := increment_eq_error_iff.mp hinc
    obtain ⟨rfl, rfl⟩ := hcourse.of_error hresolve
    simp only [loadStep, hinc] at hlast hstate hevents
    obtain rfl := Except.error.inj hlast
    have hnothing : run.events = [] := hevents
    rw [hnothing]
    exact ⟨hstate, .inr (.unnamed hresolve)⟩
  | ok inc =>
    have hunderway : Underway m s k s' events :=
      ⟨hcourse.replay_eq, hcourse.countP_isCommit, hcourse.countP_isRevert⟩
    obtain ⟨hreplay, hcases⟩ := hunderway.loadStep_failed hinc hlast
    simp only [run, hstate, hevents]
    exact ⟨hreplay, hcases.imp (fun hgivenUp => ⟨k, hk, hgivenUp⟩) id⟩

/-! ## Rolling back -/

/-- **The model was reverted to end a run**, once and last, and is left where that has taken it. -/
def RolledBack (m : Model σ n α) (hook : σ → Outcome α σ Unit) (s₀ s : σ)
    (events : List (Event n α)) : Prop :=
  ∃ before, before.countP Event.isRevert = 0
    ∧ events = before ++ .reverted :: (hook (replay m s₀ before)).notices.map .remarked
    ∧ s = (hook (replay m s₀ before)).state

variable {hook : σ → Outcome α σ Unit}

omit [Scalar α] [Conditioned α] in
/-- There was one revert then. -/
theorem RolledBack.countP_isRevert (h : RolledBack m hook s₀ s events) :
    events.countP Event.isRevert = 1 := by
  obtain ⟨before, hbefore, rfl, -⟩ := h
  rw [List.countP_append, hbefore, List.countP_cons_of_pos rfl, countP_remarks _ fun _ => rfl]

omit [Scalar α] [Conditioned α] in
/-- A run that was given up was rolled back, if the model can be reverted. -/
theorem GivenUp.rolledBack {k : Nat} (hrevert : m.revert? = some hook)
    (h : GivenUp m s₀ k s events e) : RolledBack m hook s₀ s events := by
  obtain ⟨before, hbefore, hevents, -⟩ := h.reverted hook hrevert
  refine ⟨before, hbefore, hevents, ?_⟩
  rw [h.state, hevents, replay_append]
  change replay m (Event.effect m _ .reverted) _ = _
  rw [replay_remarks, Event.effect, hrevert]
  rfl

/-- The evaluation at which the ends of a bar meet interrupts a run. -/
theorem interrupted_collapse [SeriesAngle] : Interrupted Bar.model [0] Bar.rest
    [.evaluated (Bar.stretched 0), .evaluated (Bar.stretched (-1))]
      (.degenerate .collapsedChord) := by
  have hevents : [.evaluated (Bar.stretched 0), .evaluated (Bar.stretched (-1))]
      = [.evaluated (Bar.stretched 0)] ++ evaluation Bar.model (Bar.stretched (-1))
        (replay Bar.model Bar.rest [.evaluated (Bar.stretched 0)]) := by
    rw [Bar.evaluation_eq]
    rfl
  rw [hevents]
  refine .unanswered rfl ?_
  rw [Bar.respond_collapsed]
  rfl

/-- **A failing run is rolled back unless it was interrupted.** An interrupted run leaves the model
as the evaluations have left it, and nothing was reverted. -/
theorem solveNewton_rolledBack_iff (hrevert : m.revert? = some hook)
    (h : (solveNewton m settings F fixed s).ending = .error e) :
    let run := solveNewton m settings F fixed s
    (RolledBack m hook s run.state run.events ↔ ¬ Interrupted m fixed s run.events e)
      ∧ (Interrupted m fixed s run.events e →
        run.events.countP Event.isRevert = 0 ∧ run.state = replay m s run.events) := by
  intro run
  obtain ⟨hstate, hcases⟩ := solveNewton_failed h
  refine ⟨⟨fun hback hinterrupted => ?_, fun hnot => ?_⟩,
    fun hinterrupted => ⟨hinterrupted.countP_isRevert, hstate⟩⟩
  · -- one revert against none
    have hone := hback.countP_isRevert
    rw [hinterrupted.countP_isRevert] at hone
    cases hone
  · obtain ⟨k, -, hgivenUp⟩ := hcases.resolve_right hnot
    exact hgivenUp.rolledBack hrevert

/-- A bar that is given no iteration, and one that the load pushes together. -/
theorem solveNewton_rolledBack_iff_bar :
    letI : SeriesAngle := .exact
    let given := solveNewton Bar.model (Bar.settings 2 0) (Bar.stretched 2) [0] Bar.rest
    let pushed := solveNewton Bar.model (Bar.settings 1 25) (Bar.stretched (-1)) [0] Bar.rest
    RolledBack Bar.model Bar.revert Bar.rest given.state given.events
      ∧ ¬ RolledBack Bar.model Bar.revert Bar.rest pushed.state pushed.events
      ∧ pushed.state = replay Bar.model Bar.rest pushed.events := by
  let _ : SeriesAngle := .exact
  have hgiven : solveNewton Bar.model (Bar.settings 2 0) (Bar.stretched 2) [0] Bar.rest = _ :=
    Bar.solveNewton_exhausted 1 2 Bar.rest
  have hpushed : solveNewton Bar.model (Bar.settings 1 25) (Bar.stretched (-1)) [0] Bar.rest = _ :=
    Bar.solveNewton_collapse (by decide) Bar.rest
  obtain ⟨hback, -⟩ := solveNewton_rolledBack_iff rfl (congrArg Part.ending hgiven)
  obtain ⟨hkept, hleft⟩ := solveNewton_rolledBack_iff rfl (congrArg Part.ending hpushed)
  have hinterrupted := interrupted_collapse
  refine ⟨hback.mpr fun hinterrupted => ?_, fun h => hkept.mp h ?_, (hleft ?_).2⟩
  · have hnone := hinterrupted.countP_isRevert
    rw [hgiven] at hnone
    cases hnone
  · rw [hpushed]
    exact hinterrupted
  · rw [hpushed]
    exact hinterrupted

/-- **A bar that the load pushes together is not rolled back**: it stays where its ends meet. -/
theorem collapsed_bar_kept :
    letI : SeriesAngle := .exact
    let run := solveNewton Bar.model (Bar.settings 1 25) (Bar.stretched (-1)) [0] Bar.rest
    run.events.countP Event.isEvaluation = 2
      ∧ run.ending = .error (.degenerate .collapsedChord)
      ∧ run.events.countP Event.isRevert = 0
      ∧ run.state.trial.get 1 = -1 ∧ run.state.committed.get 1 = 0 := by
  let _ : SeriesAngle := .exact
  intro run
  have hrun : run = _ := Bar.solveNewton_collapse (by decide) Bar.rest
  rw [hrun]
  exact ⟨rfl, rfl, rfl, rfl, rfl⟩

end Newton

end Corotation
