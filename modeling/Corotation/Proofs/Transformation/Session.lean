import Corotation.Proofs.Transformation.Attachment
/-!
# Sessions — runs of lifecycle calls

A session is a transformation under any sequence of its operations, some of
which may fail, each at whatever the nodes report at that moment. Beside the
transformation it remembers where the bound nodes are and what they reported
at the latest evaluation.

Every session is consistent (`run_consistent`): past its initialization the
transformation is sound, and in the stage `current` all that is cached belongs
to the evaluation at what was reported.
-/

namespace Corotation

/-- An operation of the lifecycle, with what the nodes report at it. -/
inductive Call (ν α : Type) where
  /-- Bind two nodes. -/
  | attach (nodes : List (Option (ν × Node α)))
  /-- Follow the nodes. -/
  | update (trial : ν → Displacement α)
  /-- Keep the trial state. -/
  | commit
  /-- Go back to the committed state. -/
  | revert (trial : ν → Displacement α)
  /-- Go back to the reference configuration. -/
  | reset (trial : ν → Displacement α)

namespace Call

variable {ν α : Type}

/-- The operation on a transformation. -/
def perform [Scalar α] (tol : Tolerances α) (t : Transformation ν α) :
    Call ν α → Outcome α (Transformation ν α) Unit
  | attach nodes => t.attach tol nodes
  | update trial => t.update tol trial
  | commit => t.commit
  | revert trial => t.revert tol trial
  | reset trial => t.reset tol trial

/-- What the nodes report, if the operation looks at it. -/
def trial? : Call ν α → Option (ν → Displacement α)
  | update trial | revert trial | reset trial => some trial
  | attach _ | commit => none

/-- Where the nodes are that the operation binds, if there are two. -/
def positions? : Call ν α → Option (Ends (Vec3 α))
  | attach [some (_, ni), some (_, nj)] => some ⟨ni.position, nj.position⟩
  | _ => none

/-- Without bound nodes everything but an attachment is refused. -/
theorem perform_of_unbound [Scalar α] {tol : Tolerances α} {t : Transformation ν α} {c : Call ν α}
    {e : Failure α} (hbound : t.bound? = .error e)
    (hc : ∀ pair, c ≠ .attach pair) : c.perform tol t = .fail t e := by
  cases c with
  | attach pair => exact absurd rfl (hc pair)
  | update trial => simp only [perform, Transformation.update, hbound]
  | commit => simp only [perform, Transformation.commit, hbound]
  | revert trial => simp only [perform, Transformation.revert, hbound]
  | reset trial => simp only [perform, Transformation.reset, hbound]

end Call

/-- A transformation with what its nodes have shown to it. -/
structure Session (ν α : Type) where
  /-- The transformation. -/
  transformation : Transformation ν α
  /-- The positions of the bound nodes. -/
  position : Ends (Vec3 α)
  /-- What the bound nodes reported at the latest evaluation. -/
  reported : Ends (Displacement α)

namespace Session

section Runs

variable {ν α : Type} [Scalar α]

/-- The session of a transformation before it is initialized. -/
def start (config : Configuration α) : Session ν α :=
  ⟨.ofConfiguration config, .both .zero, .both .zero⟩

/-- The session after one more operation. -/
def next (tol : Tolerances α) (s : Session ν α) (c : Call ν α) : Session ν α where
  transformation := (c.perform tol s.transformation).state
  position :=
    match (c.perform tol s.transformation).result, c.positions? with
    | .ok _, some position => position
    | _, _ => s.position
  reported :=
    match s.transformation.nodes, c.trial? with
    | some nodes, some trial => nodes.map trial
    | _, _ => s.reported

/-- The session after a sequence of operations. -/
def run (tol : Tolerances α) (config : Configuration α) (calls : List (Call ν α)) : Session ν α :=
  calls.foldl (next tol) (start config)

/-- The displacements of the bound nodes at the latest evaluation, less what
was captured. -/
def displacement (s : Session ν α) : Ends (Displacement α) :=
  s.transformation.displacement s.reported

variable {tol : Tolerances α} {s : Session ν α} {c : Call ν α}

/-- What the nodes reported at an operation that looks at it. -/
theorem next_displacement {nodes : Ends ν} (hnodes : s.transformation.nodes = some nodes)
    {trial : ν → Displacement α} (hc : c.trial? = some trial) : (s.next tol c).displacement
      = (s.next tol c).transformation.displacement (nodes.map trial) := by
  simp only [displacement, next, hnodes, hc]

/-- No other operation changes what was reported. -/
theorem next_reported (hc : c.trial? = none) : (s.next tol c).reported = s.reported := by
  simp only [next, hc]
  cases s.transformation.nodes <;> rfl

end Runs

variable [SeriesAngle] {ν : Type} {tol : Tolerances ℝ} {s : Session ν ℝ}

/-- Past its initialization the transformation is sound, and in the stage
`current` it is that of the latest evaluation. -/
structure Consistent (tol : Tolerances ℝ) (s : Session ν ℝ) : Prop where
  sound : s.transformation.stage ≠ .uninitialized → s.transformation.IsSound tol s.position
  current : s.transformation.stage = .current → s.transformation.IsCurrent tol s.displacement

/-- In the stage `current` the transformation is both. -/
theorem Consistent.of_current (h : s.Consistent tol)
    (hcurrent : s.transformation.stage = .current) :
    s.transformation.IsCurrent tol s.displacement
      ∧ s.transformation.IsSound tol s.position ∧ s.transformation.stage ≠ .uninitialized := by
  have hstage : s.transformation.stage ≠ .uninitialized := by rw [hcurrent]; exact nofun
  exact ⟨h.current hcurrent, h.sound hstage, hstage⟩

end Session

namespace Transformation

variable [SeriesAngle] {ν : Type} {tol : Tolerances ℝ} {t : Transformation ν ℝ}
variable {position : Ends (Vec3 ℝ)} {nodes : Ends ν}

/-! ## What an operation preserves -/

/-- **An update keeps a transformation sound**, and is current only as an
evaluation at what the nodes report. -/
theorem update_sound (h0 : 0 ≤ tol.parallel) (h : t.IsSound tol position) (hbound : IsBound t nodes)
    (trial : ν → Displacement ℝ) :
    let t' := (t.update tol trial).state
    t'.IsSound tol position ∧ IsBound t' nodes
      ∧ (t'.stage = .current → t'.IsCurrent tol (t'.displacement (nodes.map trial))) := by
  rcases update_cases h0 h.versors hbound trial with ⟨hdet, heq⟩ | ⟨-, e, heq⟩ <;> rw [heq]
  · exact ⟨⟨⟨nodes, nofun, hbound.nodes⟩, h.reference, (h.versors.moved _).evaluated _⟩,
      ⟨nofun, hbound.nodes⟩, fun _ => isCurrent_evaluated rfl hdet⟩
  · exact ⟨⟨⟨nodes, nofun, hbound.nodes⟩, h.reference, h.versors.moved _⟩, ⟨nofun, hbound.nodes⟩,
      nofun⟩

/-- A commit keeps a transformation sound and what is cached. -/
theorem commit_sound (h : t.IsSound tol position) (hbound : IsBound t nodes) :
    t.commit = .ok t.snapshot () ∧ t.snapshot.IsSound tol position ∧ IsBound t.snapshot nodes
      ∧ ∀ d, t.IsCurrent tol d → t.snapshot.IsCurrent tol d := by
  have hsound : t.snapshot.IsSound tol position :=
    ⟨⟨nodes, hbound.stage, hbound.nodes⟩, h.reference, h.versors.snapshot⟩
  exact ⟨commit_of_bound hbound.bound?, hsound, ⟨hbound.stage, hbound.nodes⟩, fun _ => .snapshot⟩

/-- A reverted transformation is sound, and current as an evaluation at what
the nodes report. -/
theorem revert_sound (h0 : 0 ≤ tol.parallel) (h : t.IsSound tol position) (hbound : IsBound t nodes)
    (trial : ν → Displacement ℝ) :
    let t' := (t.revert tol trial).state
    t'.IsSound tol position
      ∧ (t'.stage = .current → t'.IsCurrent tol (t'.displacement (nodes.map trial))) := by
  have hrestored : (t.restore (nodes.map trial)).IsSound tol position :=
    ⟨⟨nodes, hbound.stage, hbound.nodes⟩, h.reference, h.versors.restore _⟩
  have hupdate := update_sound h0 hrestored ⟨hbound.stage, hbound.nodes⟩ trial
  rw [revert_of_bound hbound.bound?]
  exact ⟨hupdate.1, hupdate.2.2⟩

/-- A transformation that was reset is sound, and current as an evaluation at
what the nodes report. -/
theorem reset_sound (h0 : 0 ≤ tol.parallel) (h : t.IsSound tol position) (hbound : IsBound t nodes)
    (trial : ν → Displacement ℝ) :
    let t' := (t.reset tol trial).state
    t'.IsSound tol position
      ∧ (t'.stage = .current → t'.IsCurrent tol (t'.displacement (nodes.map trial))) := by
  have hq := Versor.ofRotation_square h.reference.isRotation
  set q := Versor.ofRotation t.reference.axes
  have hstart : (t.backAtStart q).IsSound tol position :=
    ⟨⟨nodes, hbound.stage, hbound.nodes⟩, h.reference, h.versors.backAtStart hq⟩
  have hupdate := update_sound h0 hstart ⟨hbound.stage, hbound.nodes⟩ trial
  rw [reset_of_bound hbound.bound? (Versor.ofMatrix_eq h.reference.isRotation)]
  simp only [Outcome.andThen]
  split
  · exact ⟨hupdate.1, hupdate.2.2⟩
  · obtain ⟨heq, hsound, -, hcurrent⟩ := commit_sound hupdate.1 hupdate.2.1
    rw [heq]
    exact ⟨hsound, fun hstage => hcurrent _ (hupdate.2.2 hstage)⟩

end Transformation

namespace Session

variable [SeriesAngle] {ν : Type} {tol : Tolerances ℝ} {s : Session ν ℝ}

/-! ## Consistency -/

theorem start_consistent (tol : Tolerances ℝ) (config : Configuration ℝ) :
    (start config : Session ν ℝ).Consistent tol := ⟨fun h => absurd rfl h, nofun⟩

/-- An operation on a transformation that was never initialized fails and
changes nothing, unless it is an attachment. -/
theorem perform_uninitialized {t : Transformation ν ℝ} (h : t.stage = .uninitialized)
    (c : Call ν ℝ) (hc : ∀ nodes, c ≠ .attach nodes) : (c.perform tol t).state = t := by
  rw [Call.perform_of_unbound (Transformation.bound?_of_uninitialized h) hc]
  rfl

/-- A session in which an operation other than an attachment finds no bound
nodes stays consistent. -/
theorem next_consistent_of_uninitialized (h : s.transformation.stage = .uninitialized)
    (c : Call ν ℝ) (hc : ∀ nodes, c ≠ .attach nodes) : (s.next tol c).Consistent tol := by
  have hstage : (s.next tol c).transformation.stage = .uninitialized := by
    rw [next, perform_uninitialized h c hc, h]
  exact ⟨fun h' => absurd hstage h', fun h' => absurd (hstage.symm.trans h') nofun⟩

/-- An attachment keeps a session consistent. -/
theorem next_attach_consistent (h0 : 0 ≤ tol.parallel) (h : s.Consistent tol)
    (pair : List (Option (ν × Node ℝ))) : (s.next tol (.attach pair)).Consistent tol := by
  rcases s.transformation.attach_cases h0 pair with
    ⟨i, ni, j, nj, rfl, hresult, hstage, hsound⟩ | ⟨e, heq⟩
  · have hposition : (s.next tol (.attach [some (i, ni), some (j, nj)])).position
        = ⟨ni.position, nj.position⟩ := by
      simp only [next, Call.perform, hresult, Call.positions?]
    refine ⟨fun _ => hposition ▸ hsound, fun hcurrent => ?_⟩
    exact absurd (hstage.symm.trans hcurrent) nofun
  · have hsame : (s.next tol (.attach pair)) = s := by
      simp only [next, Call.perform, heq, Outcome.fail, Call.trial?]
      cases s.transformation.nodes <;> rfl
    rw [hsame]
    exact h

/-- Only an attachment moves the bound nodes to other positions. -/
theorem next_position {c : Call ν ℝ} (hc : c.positions? = none) :
    (s.next tol c).position = s.position := by
  simp only [next, hc]
  cases (c.perform tol s.transformation).result <;> rfl

/-- An operation that looks at the nodes keeps a session consistent, if it
leaves a sound transformation that is current only as an evaluation at what
the nodes report. -/
theorem next_consistent_of_evaluation {nodes : Ends ν}
    (hnodes : s.transformation.nodes = some nodes) {c : Call ν ℝ} {trial : ν → Displacement ℝ}
    (hc : c.trial? = some trial) (hposition : c.positions? = none)
    (h : (c.perform tol s.transformation).state.IsSound tol s.position
      ∧ ((c.perform tol s.transformation).state.stage = .current →
        (c.perform tol s.transformation).state.IsCurrent tol
          ((c.perform tol s.transformation).state.displacement (nodes.map trial)))) :
    (s.next tol c).Consistent tol := by
  refine ⟨fun _ => ?_, fun hstage => ?_⟩
  · rw [next_position hposition]
    exact h.1
  · rw [next_displacement hnodes hc]
    exact h.2 hstage

/-- A commit keeps a session consistent. -/
theorem next_commit_consistent (h : s.Consistent tol)
    (hstage : s.transformation.stage ≠ .uninitialized) :
    (s.next tol .commit).Consistent tol := by
  obtain ⟨nodes, hbound⟩ := (h.sound hstage).bound
  obtain ⟨heq, hsound, -, hcurrent⟩ :=
    Transformation.commit_sound (h.sound hstage) hbound
  have hstate : (s.next tol .commit).transformation = s.transformation.snapshot :=
    congrArg Outcome.state heq
  refine ⟨fun _ => ?_, fun hcur => ?_⟩
  · rw [hstate, next_position rfl]
    exact hsound
  · rw [displacement, next_reported rfl, hstate]
    rw [hstate] at hcur
    exact hcurrent _ (h.current hcur)

/-- **One operation keeps a session consistent**, whether it succeeds or
not. -/
theorem next_consistent (h0 : 0 ≤ tol.parallel) (h : s.Consistent tol) (c : Call ν ℝ) :
    (s.next tol c).Consistent tol := by
  by_cases hattach : ∃ pair, c = .attach pair
  · obtain ⟨pair, rfl⟩ := hattach
    exact next_attach_consistent h0 h pair
  by_cases hstage : s.transformation.stage = .uninitialized
  · exact next_consistent_of_uninitialized hstage c fun pair hc => hattach ⟨pair, hc⟩
  have hsound := h.sound hstage
  obtain ⟨nodes, hbound⟩ := hsound.bound
  cases c with
  | attach pair => exact absurd ⟨pair, rfl⟩ hattach
  | commit => exact next_commit_consistent h hstage
  | update trial =>
    have := Transformation.update_sound h0 hsound hbound trial
    exact next_consistent_of_evaluation hbound.nodes rfl rfl ⟨this.1, this.2.2⟩
  | revert trial =>
    exact next_consistent_of_evaluation hbound.nodes rfl rfl
      (Transformation.revert_sound h0 hsound hbound trial)
  | reset trial =>
    exact next_consistent_of_evaluation hbound.nodes rfl rfl
      (Transformation.reset_sound h0 hsound hbound trial)

/-- **Every session is consistent.** -/
theorem run_consistent (h0 : 0 ≤ tol.parallel) (config : Configuration ℝ)
    (calls : List (Call ν ℝ)) : (run tol config calls).Consistent tol := by
  unfold run
  induction calls using List.reverseRecOn with
  | nil => exact start_consistent tol config
  | append_singleton calls c ih =>
    rw [List.foldl_append]
    exact next_consistent h0 ih c

end Session

end Corotation
