import Corotation.Proofs.Transformation.RigidMotion
/-!
# Which queries are accepted

The projections ask for the stage `current`, and nothing but an evaluation leaves
it. An operation that looks at the nodes ends in one of two ways
(`perform_cases`): it succeeds, and all that is cached belongs to one evaluation
at what the nodes report, or it is refused, and the transformation has turned its
nodes and waits. Nothing else changes from the one to the other but an
attachment, after which no evaluation has been tried.

So the outcome of the latest evaluation, which an observer of the run can note
from the results of the calls alone (`verdict`), says what a query will get
(`query_accepted_iff`).
-/

namespace Corotation

namespace Transformation

variable [SeriesAngle] {ν : Type} {tol : Tolerances ℝ} {t : Transformation ν ℝ}
variable {d : Ends (Displacement ℝ)} {nodes : Ends ν} {position : Ends (Vec3 ℝ)}

/-! ## Refused evaluations -/

/-- Why an evaluation at which no triad is determined is refused. -/
noncomputable def refusal (t : Transformation ν ℝ) (d : Ends (Displacement ℝ)) : Failure ℝ :=
  .degenerate (if (t.deformedChord d).norm ≤ 0 then .deformedLength t.tag else .parallelMeanAxis)

/-- Where no triad is determined an evaluation leaves the state as it was. -/
theorem evaluate_of_not_determines (h : ¬ Determines tol t d) :
    t.evaluate tol d = .fail t (t.refusal d) := by
  have hchord : t.chordOf d (t.armsOf t.nodalRotation) = t.deformedChord d := rfl
  unfold evaluate refusal
  simp only [Scalar.le_real, hchord]
  by_cases hlength : (t.deformedChord d).norm ≤ 0
  · simp only [if_pos hlength]
  simp only [if_neg hlength]
  cases htriad : Triad.ofRotations tol t.nodalRotation (t.deformedChord d) with
  | ok triad => exact absurd (Triad.determined_of_ofAxes htriad) h
  | error e =>
    unfold Triad.ofRotations Triad.ofAxes at htriad
    simp only [Scalar.le_real, if_neg hlength] at htriad
    split at htriad
    · cases htriad
      rfl
    · cases htriad

/-- The state of a refused evaluation: the nodes are turned to what they report at
the displacements `d`, and no triad is determined there. -/
structure IsRefused (tol : Tolerances ℝ) (t : Transformation ν ℝ) (d : Ends (Displacement ℝ)) :
    Prop where
  stage : t.stage = .initialized
  seen : t.seen = d.map Screw.rot
  not_determines : ¬ Determines tol t d

/-- **An update succeeds with a current state, or is refused.** -/
theorem update_isCurrent_or (h0 : 0 ≤ tol.parallel) (h : HasVersors t) (hbound : IsBound t nodes)
    (trial : ν → Displacement ℝ) :
    let d := t.displacement (nodes.map trial)
    (∃ u, t.update tol trial = .ok u () ∧ IsBound u nodes ∧ u.initial = t.initial
        ∧ IsCurrent tol u d)
      ∨ (∃ u, t.update tol trial = .fail u (u.refusal d) ∧ IsBound u nodes ∧ u.initial = t.initial
        ∧ IsRefused tol u d) := by
  intro d
  by_cases hdet : Determines tol (t.moved (d.map Screw.rot)) d
  · exact .inl ⟨_, update_of_determines h0 h hbound rfl hdet, ⟨nofun, hbound.nodes⟩, rfl,
      isCurrent_evaluated rfl hdet⟩
  · refine .inr ⟨t.moved (d.map Screw.rot), ?_, ⟨nofun, hbound.nodes⟩, rfl, rfl, rfl, hdet⟩
    rw [update_eq h hbound]
    exact evaluate_of_not_determines hdet

/-- **Nodes at one place** leave no chord to an element without offsets, so an update is refused
once it has turned them. -/
theorem update_of_coinciding (h0 : 0 ≤ tol.parallel) (h : t.IsSound tol position)
    (hbound : IsBound t nodes) (hoffset : t.reference.offset = .both 0) {trial : ν → Displacement ℝ}
    (hd : t.displacement (nodes.map trial) = d)
    (hsame : position.i + d.i.lin = position.j + d.j.lin) :
    ∃ e, t.update tol trial = .fail (t.moved (d.map Screw.rot)) e := by
  have hcases := update_cases h0 h.versors hbound trial
  simp only [hd] at hcases
  rcases hcases with ⟨hdet, -⟩ | ⟨-, hfail⟩
  · have hr : (t.moved (d.map Screw.rot)).reference.IsSound tol position := h.reference
    have hchord : (t.moved (d.map Screw.rot)).deformedChord d = 0 := by
      rw [deformedChord_eq hr, deformedArm_of_offset (t := t.moved _) hoffset, hsame]
      exact sub_self _
    have hpos := hdet.length_pos
    rw [hchord, Vec3.norm_zero] at hpos
    exact absurd hpos (lt_irrefl 0)
  · exact hfail

/-- **Every operation that looks at the nodes** succeeds with a current state, or
is refused. -/
theorem perform_cases (h0 : 0 ≤ tol.parallel) (h : t.IsSound tol position)
    (hbound : IsBound t nodes) {c : Call ν ℝ} {trial : ν → Displacement ℝ}
    (hc : c.trial? = some trial) :
    let d := t.displacement (nodes.map trial)
    (∃ u, c.perform tol t = .ok u () ∧ IsBound u nodes ∧ u.initial = t.initial
        ∧ IsCurrent tol u d)
      ∨ (∃ u, c.perform tol t = .fail u (u.refusal d) ∧ IsBound u nodes ∧ u.initial = t.initial
        ∧ IsRefused tol u d) := by
  intro d
  cases c with
  | attach pair => cases hc
  | commit => cases hc
  | update trial' =>
    cases hc
    exact update_isCurrent_or h0 h.versors hbound trial
  | revert trial' =>
    cases hc
    rw [Call.perform, revert_of_bound hbound.bound?]
    exact update_isCurrent_or h0 (h.versors.restore _) ⟨hbound.stage, hbound.nodes⟩ trial
  | reset trial' =>
    cases hc
    have hq := Versor.ofRotation_square h.reference.isRotation
    set q := Versor.ofRotation t.reference.axes
    have hstart : IsBound (t.backAtStart q) nodes := ⟨hbound.stage, hbound.nodes⟩
    have hcases := update_isCurrent_or h0 (h.versors.backAtStart hq) hstart trial
    rw [Call.perform, reset_of_bound hbound.bound? (Versor.ofMatrix_eq h.reference.isRotation)]
    rcases hcases with ⟨u, heq, hu, hinitial, hcurrent⟩ | ⟨u, heq, hu, hinitial, hrefused⟩
    · refine .inl ⟨u.snapshot, ?_, ⟨hu.stage, hu.nodes⟩, hinitial, hcurrent.snapshot⟩
      rw [heq, Outcome.ok_andThen, commit_of_bound hu.bound?]
    · refine .inr ⟨u, ?_, hu, hinitial, hrefused⟩
      rw [heq, Outcome.fail_andThen]
      rfl

end Transformation

/-! ## Queries -/

namespace Transformation

variable {ν α : Type} [Scalar α] {t : Transformation ν α}

omit [Scalar α] in
/-- A query is refused because no evaluation came before it, or none that counts. -/
theorem outOfStage_cases (t : Transformation ν α) :
    t.outOfStage = .uninitialized t.tag ∨ t.outOfStage = .outdated t.tag := by
  unfold outOfStage
  split
  · exact .inl rfl
  · exact .inr rfl

/-- **Outside the stage `current` every query is refused.** -/
theorem query_of_not_current (h : t.stage ≠ .current) : t.tangent? = .error t.outOfStage
    ∧ (∀ p, t.pushForce p = .error t.outOfStage)
    ∧ ∀ tol k p, t.pushStiffness tol k p = .error t.outOfStage := by
  have htangent : t.tangent? = .error t.outOfStage := by
    unfold tangent?
    cases hstage : t.stage with
    | current => exact absurd hstage h
    | uninitialized => rfl
    | initialized => rfl
  refine ⟨htangent, fun p => ?_, fun tol k p => ?_⟩
  · rw [pushForce, htangent]
    rfl
  · rw [pushStiffness, htangent]
    rfl

/-- With a tangent every query is answered. -/
theorem query_of_tangent {T : ElementMatrix α} (h : t.tangent? = .ok T) :
    (∀ p, ∃ f, t.pushForce p = .ok f) ∧ ∀ tol k p, ∃ K, t.pushStiffness tol k p = .ok K := by
  refine ⟨fun p => ?_, fun tol k p => ?_⟩
  · rw [pushForce, h]
    exact ⟨_, rfl⟩
  · rw [pushStiffness, h]
    exact ⟨_, rfl⟩

end Transformation

/-! ## Observers -/

namespace Session

open Transformation (twisted)

section Observers

variable {ν α β : Type} [Scalar α] {tol : Tolerances α}

/-- What an observer of a run has noted at its end: before each operation it sees
the session, and changes its note. -/
def observed (tol : Tolerances α) (config : Configuration α) (note : Session ν α → β → Call ν α → β)
    (b : β) (calls : List (Call ν α)) : β :=
  (calls.foldl (fun x c => (x.1.next tol c, note x.1 x.2 c)) (start config, b)).2

theorem observed_append (config : Configuration α) (note : Session ν α → β → Call ν α → β) (b : β)
    (calls : List (Call ν α)) (c : Call ν α) : observed tol config note b (calls ++ [c])
      = note (run tol config calls) (observed tol config note b calls) c := by
  have hsession (x : Session ν α × β) (calls : List (Call ν α)) :
      (calls.foldl (fun x c => (x.1.next tol c, note x.1 x.2 c)) x).1
        = calls.foldl (next tol) x.1 := by
    induction calls generalizing x with
    | nil => rfl
    | cons c calls ih => exact ih _
  unfold observed
  rw [List.foldl_append]
  change note _ _ c = _
  rw [hsession]
  rfl

theorem run_append (config : Configuration α) (calls : List (Call ν α)) (c : Call ν α) :
    run tol config (calls ++ [c]) = (run tol config calls).next tol c :=
  List.foldl_append ..

/-- **The note of every run** has a property that each operation keeps. -/
theorem observed_induction {config : Configuration α}
    {note : Session ν α → β → Call ν α → β} {b : β}
    {R : Session ν α → β → Prop} (hstart : R (start config) b)
    (hnext : ∀ calls b c, R (run tol config calls) b →
      R ((run tol config calls).next tol c) (note (run tol config calls) b c))
    (calls : List (Call ν α)) : R (run tol config calls) (observed tol config note b calls) := by
  induction calls using List.reverseRecOn with
  | nil => exact hstart
  | append_singleton calls c ih =>
    rw [run_append, observed_append]
    exact hnext calls _ c ih

/-- What is noted of an evaluation: whether it succeeded. Nothing is noted where nothing is
initialized. -/
def noteResult (latest : Option Bool) : Except (Failure α) Unit → Option Bool
  | .ok _ => some true
  | .error (.uninitialized _) => latest
  | .error _ => some false

/-- The outcome of the latest evaluation since an attachment was last accepted,
noted from the results of the operations alone. Updates, reverts and resets are
evaluations. -/
def noteEvaluation (tol : Tolerances α) (s : Session ν α) (latest : Option Bool) (c : Call ν α) :
    Option Bool :=
  let result := (c.perform tol s.transformation).result
  match c with
  | .attach _ => if result.isOk then none else latest
  | .commit => latest
  | .update _ | .revert _ | .reset _ => noteResult latest result

/-- Whether the latest evaluation of a run succeeded, if there was one since an
attachment was last accepted. -/
def verdict (tol : Tolerances α) (config : Configuration α) (calls : List (Call ν α)) :
    Option Bool :=
  observed tol config (noteEvaluation tol) none calls

/-- An operation that looks at the nodes is noted by its result. -/
theorem noteEvaluation_of_trial (s : Session ν α) (latest : Option Bool) {c : Call ν α}
    {trial : ν → Displacement α} (hc : c.trial? = some trial) : noteEvaluation tol s latest c
      = noteResult latest (c.perform tol s.transformation).result := by
  cases c with
  | attach pair => cases hc
  | commit => cases hc
  | update trial' => rfl
  | revert trial' => rfl
  | reset trial' => rfl

end Observers

variable [SeriesAngle] {ν : Type} {tol : Tolerances ℝ} {s : Session ν ℝ} {nodes : Ends ν}

/-- The note says when a session is in the stage `current`. -/
def Judges (s : Session ν ℝ) (latest : Option Bool) : Prop :=
  s.transformation.stage = .current ↔ latest = some true

/-- An operation that looks at the nodes is judged by its result. -/
theorem judges_of_trial (h0 : 0 ≤ tol.parallel) (h : s.Consistent tol)
    (hstage : s.transformation.stage ≠ .uninitialized) {c : Call ν ℝ} {trial : ν → Displacement ℝ}
    (hc : c.trial? = some trial) (latest : Option Bool) :
    (s.next tol c).Judges (noteEvaluation tol s latest c) := by
  obtain ⟨nodes, hbound⟩ := (h.sound hstage).bound
  rcases Transformation.perform_cases h0 (h.sound hstage) hbound hc with
    ⟨u, heq, -, -, hcurrent⟩ | ⟨u, heq, -, -, hrefused⟩
  · have hnote : noteEvaluation tol s latest c = some true := by
      rw [noteEvaluation_of_trial s latest hc, heq]
      rfl
    rw [hnote, Judges, next, heq]
    exact ⟨fun _ => rfl, fun _ => hcurrent.stage⟩
  · have hnote : noteEvaluation tol s latest c = some false := by
      rw [noteEvaluation_of_trial s latest hc, heq]
      rfl
    rw [hnote, Judges, next, heq]
    change u.stage = .current ↔ _
    rw [hrefused.stage]
    exact iff_of_false (by decide) (by decide)

/-- An attachment that is accepted is judged by no evaluation. -/
theorem judges_of_attach (h0 : 0 ≤ tol.parallel) {latest : Option Bool} (hjudges : s.Judges latest)
    (pair : List (Option (ν × Node ℝ))) :
    (s.next tol (.attach pair)).Judges (noteEvaluation tol s latest (.attach pair)) := by
  have hnote : noteEvaluation tol s latest (.attach pair)
      = if (s.transformation.attach tol pair).result.isOk then none else latest := rfl
  rcases s.transformation.attach_cases h0 pair with ⟨_, _, _, _, -, hresult, hstage, -⟩ | ⟨e, heq⟩
  · have haccepted : (s.transformation.attach tol pair).result.isOk := by
      rw [hresult]
      rfl
    rw [hnote, if_pos haccepted, Judges, next, Call.perform, hstage]
    exact iff_of_false (by decide) (by decide)
  · have hrefused : ¬ (s.transformation.attach tol pair).result.isOk := by
      rw [heq]
      exact Bool.false_ne_true
    rw [hnote, if_neg hrefused, Judges, next, Call.perform, heq]
    exact hjudges

/-- Before anything is initialized an operation other than an attachment changes
neither the session nor the note. -/
theorem judges_of_uninitialized {latest : Option Bool} (hjudges : s.Judges latest)
    (hstage : s.transformation.stage = .uninitialized) {c : Call ν ℝ}
    (hc : ∀ pair, c ≠ .attach pair) : (s.next tol c).Judges (noteEvaluation tol s latest c) := by
  have hrefused : c.perform tol s.transformation
      = .fail s.transformation (.uninitialized s.transformation.tag) :=
    Call.perform_of_unbound (Transformation.bound?_of_uninitialized hstage) hc
  have hnote : noteEvaluation tol s latest c = latest := by
    unfold noteEvaluation
    rw [hrefused]
    cases c with
    | attach pair => exact absurd rfl (hc pair)
    | _ => rfl
  rw [hnote, Judges, next, hrefused]
  exact hjudges

/-- **One operation keeps the note right**, whether it succeeds or not. -/
theorem next_judges (h0 : 0 ≤ tol.parallel) (h : s.Consistent tol) {latest : Option Bool}
    (hjudges : s.Judges latest) (c : Call ν ℝ) :
    (s.next tol c).Judges (noteEvaluation tol s latest c) := by
  -- an attachment is no evaluation, and nothing else is one before the first attachment
  by_cases hattach : ∃ pair, c = .attach pair
  · obtain ⟨pair, rfl⟩ := hattach
    exact judges_of_attach h0 hjudges pair
  by_cases hstage : s.transformation.stage = .uninitialized
  · exact judges_of_uninitialized hjudges hstage fun pair hc => hattach ⟨pair, hc⟩
  cases c with
  | attach pair => exact absurd ⟨pair, rfl⟩ hattach
  | commit =>
    obtain ⟨nodes, hbound⟩ := (h.sound hstage).bound
    rw [Judges, next, Call.perform, Transformation.commit_of_bound hbound.bound?]
    exact hjudges
  | update trial => exact judges_of_trial h0 h hstage rfl latest
  | revert trial => exact judges_of_trial h0 h hstage rfl latest
  | reset trial => exact judges_of_trial h0 h hstage rfl latest

/-- **Every run is judged right** by the outcome of its latest evaluation. -/
theorem run_judges (h0 : 0 ≤ tol.parallel) (config : Configuration ℝ) (calls : List (Call ν ℝ)) :
    (run tol config calls).Judges (verdict tol config calls) :=
  observed_induction ⟨nofun, nofun⟩
    (fun calls _ c hjudges => next_judges h0 (run_consistent h0 config calls) hjudges c) calls

/-! ## What an accepted query reads -/

/-- The vector between the displaced end points at the latest evaluation. -/
noncomputable def span (s : Session ν ℝ) : Vec3 ℝ :=
  let u := s.displacement
  let arm := s.transformation.arm
  s.position.j + u.j.lin + arm.j - (s.position.i + u.i.lin + arm.i)

/-- **All that is cached describes one configuration**: that of the present
orientations, at the displacements of the latest evaluation. -/
structure IsCoherent (tol : Tolerances ℝ) (s : Session ν ℝ) : Prop where
  arm : s.transformation.arm = s.transformation.nodalRotation.zipWith
    (fun R o => (R * s.transformation.reference.axes.transpose).apply o)
    s.transformation.reference.offset
  triad : Triad.ofRotations tol s.transformation.nodalRotation s.span = .ok s.transformation.triad
  triadLength : s.transformation.triad.length = s.span.norm
  deformedLength : s.transformation.deformedLength = s.transformation.triad.length
  deformation : ∃ theta_i theta_j,
    rotationVector (s.transformation.triad.axes.transpose * s.transformation.nodalRotation.i)
      = .ok theta_i
    ∧ rotationVector (s.transformation.triad.axes.transpose * s.transformation.nodalRotation.j)
      = .ok theta_j
    ∧ s.transformation.deformation = ⟨⟨0, theta_i⟩,
      ⟨⟨s.transformation.deformedLength - s.transformation.reference.length, 0, 0⟩, theta_j⟩⟩
  tangent : s.transformation.tangent? = .ok (ElementMatrix.mul
    (s.transformation.triad.deformationTangent tol s.transformation.deformation)
    (Transformation.link s.transformation.arm))

/-- **In the stage `current` a session is coherent.** -/
theorem Consistent.isCoherent (h0 : 0 ≤ tol.parallel) (h : s.Consistent tol)
    (hstage : s.transformation.stage = .current) : s.IsCoherent tol := by
  obtain ⟨hcurrent, hsound, -⟩ := h.of_current hstage
  set t := s.transformation
  obtain ⟨hi, hj⟩ := hsound.versors.isRotation
  have hspan : s.span = t.deformedChord s.displacement := by
    rw [Transformation.deformedChord_eq hsound.reference, ← hcurrent.arm]
    rfl
  have haxes : t.triad.axes.IsRotation := by
    rw [hcurrent.triad]
    exact (Triad.isFrame_between h0 hcurrent.determines).isRotation
  have hlength : t.triad.length = s.span.norm := by
    rw [hcurrent.triad, hspan]
    rfl
  refine ⟨hcurrent.arm, ?_, hlength, ?_, ?_, hcurrent.tangent⟩
  · rw [hcurrent.triad, hspan]
    exact Triad.ofAxes_eq hcurrent.determines
  · rw [hlength, hspan, hcurrent.length]
  · refine ⟨_, _, Versor.rotationVector_eq (haxes.transpose.mul hi),
      Versor.rotationVector_eq (haxes.transpose.mul hj), ?_⟩
    rw [hcurrent.length, hcurrent.triad]
    exact hcurrent.deformation

/-- **A query is accepted exactly when the latest evaluation succeeded.** After any
sequence of operations, some of which may fail: if the latest update, revert or
reset since an attachment was last accepted succeeded, then there is a tangent,
forces and stiffnesses of any local data are mapped to the nodes, and all that is
cached describes one configuration. Otherwise each of these queries is refused,
since nothing is initialized or nothing was updated. -/
theorem query_accepted_iff (h0 : 0 ≤ tol.parallel) (config : Configuration ℝ)
    (calls : List (Call ν ℝ)) :
    let s := run tol config calls
    let t := s.transformation
    (verdict tol config calls = some true → (∃ T, t.tangent? = .ok T)
        ∧ (∀ p, ∃ f, t.pushForce p = .ok f) ∧ (∀ k p, ∃ K, t.pushStiffness tol k p = .ok K)
        ∧ s.IsCoherent tol)
      ∧ (verdict tol config calls ≠ some true →
        ∃ e, (e = .uninitialized t.tag ∨ e = .outdated t.tag) ∧ t.tangent? = .error e
          ∧ (∀ p, t.pushForce p = .error e) ∧ ∀ k p, t.pushStiffness tol k p = .error e) := by
  intro s t
  have hjudges : s.Judges (verdict tol config calls) := run_judges h0 config calls
  have hconsistent : s.Consistent tol := run_consistent h0 config calls
  refine ⟨fun hverdict => ?_, fun hverdict => ?_⟩
  · have hstage := hjudges.mpr hverdict
    have htangent := (hconsistent.current hstage).tangent
    obtain ⟨hforce, hstiffness⟩ := Transformation.query_of_tangent htangent
    exact ⟨⟨_, htangent⟩, hforce, hstiffness tol, hconsistent.isCoherent h0 hstage⟩
  · have hstage : t.stage ≠ .current := fun hstage => hverdict (hjudges.mp hstage)
    obtain ⟨htangent, hforce, hstiffness⟩ := Transformation.query_of_not_current hstage
    exact ⟨_, t.outOfStage_cases, htangent, hforce, hstiffness tol⟩

omit [SeriesAngle] in
/-- The twisted element is judged by its update. Before its attachment it is not
judged, and every query is refused. -/
theorem query_accepted_iff_twisted :
    letI : SeriesAngle := .exact
    let calls : List (Call Bool ℝ) :=
      [.attach [some (false, .ofPosition .null 0), some (true, .ofPosition .null ⟨1, 0, 0⟩)],
        .update (pairTrial (twisted 1))]
    verdict .standard straight calls = some true
      ∧ (∃ T, (run .standard straight calls).transformation.tangent? = .ok T)
      ∧ (run .standard straight calls).IsCoherent .standard
      ∧ verdict .standard straight [.update (pairTrial (twisted 1)), .commit] = none
      ∧ ∃ e, ∀ p, (run .standard straight [.update (pairTrial (twisted 1)), .commit]
        ).transformation.pushForce p = .error e := by
  let _ : SeriesAngle := .exact
  intro calls
  have h0 := Tolerances.standard_admissible_exact.parallel_nonneg
  obtain ⟨hstage, -⟩ := twistedSession_standard
  have hverdict : verdict .standard straight calls = some true :=
    (run_judges h0 straight calls).mp hstage
  obtain ⟨htangent, -, -, hcoherent⟩ := (query_accepted_iff h0 straight calls).1 hverdict
  have hnone : verdict .standard straight [.update (pairTrial (twisted 1)), .commit] = none := rfl
  obtain ⟨e, -, -, hforce, -⟩ :=
    (query_accepted_iff h0 straight [.update (pairTrial (twisted 1)), .commit]).2 (by
      rw [hnone]
      exact nofun)
  exact ⟨hverdict, htangent, hcoherent, hnone, e, hforce⟩

end Session

end Corotation
