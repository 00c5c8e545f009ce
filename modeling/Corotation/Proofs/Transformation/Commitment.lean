import Corotation.Proofs.Transformation.Reset
/-!
# What is committed

A commit keeps the orientations of both nodes and the local deformations: a pose. Where the
latest operation that got to the trial state succeeded, these two belong together. An attachment
leaves both nodes at the orientation of the reference and nothing deformed, and an evaluation
leaves the deformations that it found at the orientations it found them at (`Call.Finds`).

A refused update has turned its nodes and has found no deformations, so what it leaves is a pose
of two halves. A commit asks for bound nodes and for nothing more, since that is how an attachment
is committed, before anything is evaluated. So whoever commits only where the latest such
operation succeeded (`IsTimely`) has always committed the pose of one operation that succeeded
(`committedPose_isFound`), and after a refused update the pose may belong to none
(`commit_of_refused_update`).
-/

namespace Corotation

/-- The orientations of both nodes, with the local deformations at them. -/
@[ext]
structure Pose (α : Type) where
  /-- The orientations. -/
  versor : Ends (Versor α)
  /-- The deformations. -/
  deformation : ElementVector α

namespace Transformation

variable {ν α : Type}

/-- The pose of the trial state. -/
def pose (t : Transformation ν α) : Pose α := ⟨t.versor, t.deformation⟩

/-- The pose of the committed state. -/
def committedPose (t : Transformation ν α) : Pose α := ⟨t.committedVersor, t.committed⟩

/-- A commit keeps the pose that it finds. -/
theorem committedPose_snapshot (t : Transformation ν α) : t.snapshot.committedPose = t.pose := rfl

variable [Scalar α] {tol : Tolerances α} {t : Transformation ν α} {nodes : Ends ν}

/-! ## Accepted and refused -/

/-- **An attachment** is refused at once, or accepted with a frame, or refused without one
after it has bound the nodes. -/
theorem attach_pose_cases (tol : Tolerances α) (t : Transformation ν α) {i j : ν} {ni nj : Node α}
    {r : Reference α} (href : referenceOf tol t.config ⟨ni.position, nj.position⟩ = .ok r) :
    let o := t.attach tol [some (i, ni), some (j, nj)]
    (o.result = .ok () ∧ o.state.committedPose = o.state.pose
        ∧ ∃ q, Versor.ofMatrix o.state.reference.axes = .ok q ∧ o.state.pose = ⟨.both q, .zero⟩)
      ∨ ((∃ e, o.result = .error e) ∧ o.state.committedPose = t.committedPose
        ∧ o.state.stage = t.stage) := by
  intro o
  by_cases hframe : r.HasFrame tol
  · obtain ⟨⟨q, hq⟩, triad, htriad⟩ := hframe
    obtain ⟨hresult, hstate⟩ := attach_of_frame (i := i) (j := j) href hq htriad
    have hreference := (t.places_placed ⟨i, j⟩ ⟨ni.trial, nj.trial⟩ r).reference
    refine .inl ⟨hresult, ?_, q, ?_, ?_⟩ <;> simp only [o, hstate]
    · rfl
    · rw [← hreference] at hq
      exact hq
    · rfl
  · obtain ⟨herror, hplaces⟩ := attach_without_frame (t := t) (i := i) (j := j) href hframe
    refine .inr ⟨herror, ?_, hplaces.stage⟩
    rw [committedPose, hplaces.committed, hplaces.committedVersor]
    rfl

omit [Scalar α] in
/-- What keeps the commit keeps its pose. -/
theorem Keeps.committedPose {t' : Transformation ν α} (h : Keeps t t') :
    t'.committedPose = t.committedPose := Pose.ext h.committedVersor h.committed

/-- **An update of bound nodes** is accepted in the stage `current`, or refused in the stage
`initialized` with the deformations of before. -/
theorem update_pose_cases (tol : Tolerances α) (hbound : t.bound? = .ok nodes)
    (trial : ν → Displacement α) :
    let o := t.update tol trial
    (o.result = .ok () ∧ o.state.stage = .current)
      ∨ ((∃ e, o.result = .error e) ∧ o.state.stage = .initialized
        ∧ o.state.deformation = t.deformation) := by
  intro o
  rcases update_outcome tol hbound trial with ⟨q, u, heval, heq⟩ | ⟨seen, q, triad, e, heq⟩
  · obtain ⟨_, _, -, -, -, hu⟩ := evaluate_eq_ok_iff.mp heval
    refine .inl ⟨congrArg Outcome.result heq, ?_⟩
    simp only [o, heq, Outcome.ok, hu]
  · refine .inr ⟨⟨e, congrArg Outcome.result heq⟩, ?_⟩
    simp only [o, heq, Outcome.fail, and_self]

/-- So is a revert, with the committed deformations if it is refused. -/
theorem revert_pose_cases (tol : Tolerances α) (hbound : t.bound? = .ok nodes)
    (trial : ν → Displacement α) :
    let o := t.revert tol trial
    (o.result = .ok () ∧ o.state.stage = .current)
      ∨ ((∃ e, o.result = .error e) ∧ o.state.stage = .initialized
        ∧ o.state.deformation = t.committed) := by
  intro o
  have hrestored : (t.restore (nodes.map trial)).bound? = .ok nodes := hbound
  simp only [o, revert_of_bound hbound]
  exact update_pose_cases tol hrestored trial

/-- **A reset of bound nodes** is accepted in the stage `current` and has committed what it
found, or is refused with no deformations and with the commit of before. -/
theorem reset_pose_cases (tol : Tolerances α) (hbound : t.bound? = .ok nodes)
    (trial : ν → Displacement α) :
    let o := t.reset tol trial
    (o.result = .ok () ∧ o.state.stage = .current ∧ o.state.committedPose = o.state.pose)
      ∨ ((∃ e, o.result = .error e) ∧ o.state.deformation = .zero
        ∧ o.state.committedPose = t.committedPose) := by
  intro o
  cases hq : Versor.ofMatrix t.reference.axes with
  | error e =>
    have hreset : o = .fail { t with deformation := .zero } e := by
      simp only [o, reset, hbound, hq]
    rw [hreset]
    exact .inr ⟨⟨e, rfl⟩, rfl, rfl⟩
  | ok q =>
    have hstart : (t.backAtStart q).bound? = .ok nodes := hbound
    have hkeeps := update_keeps tol trial (t.backAtStart q)
    simp only [o, reset_of_bound hbound hq]
    rcases update_outcome tol hstart trial with ⟨_, u, heval, heq⟩ | ⟨_, _, _, e, heq⟩
    · obtain ⟨_, _, -, -, -, hu⟩ := evaluate_eq_ok_iff.mp heval
      have hstage : u.stage = .current := by rw [hu]
      have hcommit : u.commit = .ok u.snapshot () := by
        rw [heq] at hkeeps
        exact commit_of_bound (hkeeps.bound? hstart)
      rw [heq, Outcome.ok_andThen, hcommit]
      exact .inl ⟨rfl, hstage, rfl⟩
    · rw [heq, Outcome.fail_andThen]
      exact .inr ⟨⟨e, rfl⟩, rfl, rfl⟩

/-! ## Commits after a refusal -/

/-- **A refused revert commits what was committed**, if the rotational parts that the nodes
report cancel: it has gone back, and nothing has turned since. -/
theorem revert_refused_pose (hbound : t.bound? = .ok nodes) {trial : ν → Displacement α}
    (hi : (t.displacement (nodes.map trial)).i.rot.Cancels)
    (hj : (t.displacement (nodes.map trial)).j.rot.Cancels) {e : Failure α}
    (he : (t.revert tol trial).result = .error e) :
    (t.revert tol trial).state.pose = t.committedPose := by
  rw [revert_of_cancels hbound rfl hi hj] at he ⊢
  rcases evaluate_outcome tol { t.restore (nodes.map trial) with stage := .initialized }
    (t.displacement (nodes.map trial)) with ⟨u, heq⟩ | ⟨_, e', heq⟩
  · rw [heq] at he
    cases he
  · rw [heq]
    rfl

end Transformation

/-! ## What an operation finds -/

namespace Call

variable {ν α : Type} [Scalar α]

/-- The operation leaves the pose `p` in the state `t`: both nodes at the orientation of the
reference and nothing deformed if it is an attachment, and what it has evaluated if it looks at
the nodes. -/
def Finds (c : Call ν α) (t : Transformation ν α) (p : Pose α) : Prop :=
  match c with
  | attach _ => t.pose = p ∧ ∃ q, Versor.ofMatrix t.reference.axes = .ok q ∧ p = ⟨.both q, .zero⟩
  | commit => False
  | update _ | revert _ | reset _ => t.pose = p ∧ t.stage = .current

/-- An operation that looks at the nodes has evaluated what it leaves. -/
theorem finds_of_trial {c : Call ν α} {trial : ν → Displacement α} (hc : c.trial? = some trial)
    {t : Transformation ν α} (hstage : t.stage = .current) : c.Finds t t.pose := by
  cases c with
  | attach pair => cases hc
  | commit => cases hc
  | update trial' => exact ⟨rfl, hstage⟩
  | revert trial' => exact ⟨rfl, hstage⟩
  | reset trial' => exact ⟨rfl, hstage⟩

/-- **An operation that looks at bound nodes** is accepted with what it evaluated, and with the
commit of before or one of that, or refused with the commit of before. -/
theorem perform_pose_cases (tol : Tolerances α) {t : Transformation ν α} {nodes : Ends ν}
    (hbound : t.bound? = .ok nodes) {c : Call ν α} {trial : ν → Displacement α}
    (hc : c.trial? = some trial) :
    let o := c.perform tol t
    (o.result = .ok () ∧ c.Finds o.state o.state.pose
        ∧ (o.state.committedPose = t.committedPose ∨ o.state.committedPose = o.state.pose))
      ∨ ((∃ e, o.result = .error e) ∧ o.state.committedPose = t.committedPose) := by
  intro o
  cases c with
  | attach pair => cases hc
  | commit => cases hc
  | update trial' =>
    have hkeeps := (t.update_keeps tol trial').committedPose
    rcases Transformation.update_pose_cases tol hbound trial' with ⟨hresult, hstage⟩ | ⟨he, -⟩
    · exact .inl ⟨hresult, finds_of_trial hc hstage, .inl hkeeps⟩
    · exact .inr ⟨he, hkeeps⟩
  | revert trial' =>
    have hkeeps := (t.revert_keeps tol trial').committedPose
    rcases Transformation.revert_pose_cases tol hbound trial' with ⟨hresult, hstage⟩ | ⟨he, -⟩
    · exact .inl ⟨hresult, finds_of_trial hc hstage, .inl hkeeps⟩
    · exact .inr ⟨he, hkeeps⟩
  | reset trial' =>
    rcases Transformation.reset_pose_cases tol hbound trial' with
      ⟨hresult, hstage, hcommitted⟩ | ⟨he, -, hcommitted⟩
    · exact .inl ⟨hresult, finds_of_trial hc hstage, .inr hcommitted⟩
    · exact .inr ⟨he, hcommitted⟩

end Call

namespace Session

open Transformation (twisted)

section Runs

variable {ν α : Type} [Scalar α] {tol : Tolerances α} {config : Configuration α}
variable {s : Session ν α} {calls : List (Call ν α)} {p : Pose α}

/-! ## Timely commits -/

/-- What is noted of the trial state: whether the latest operation that got to it succeeded. An
attachment gets to it once there is a reference geometry, and an operation that looks at the
nodes once there are any. -/
def noteUsable (tol : Tolerances α) (s : Session ν α) (usable : Bool) (c : Call ν α) : Bool :=
  let result := (c.perform tol s.transformation).result
  match c with
  | .attach _ =>
    match c.positions? with
    | none => usable
    | some position =>
      match Transformation.referenceOf tol s.transformation.config position with
      | .error _ => usable
      | .ok _ => result.isOk
  | .commit => usable
  | .update _ | .revert _ | .reset _ =>
    match s.transformation.bound? with
    | .error _ => usable
    | .ok _ => result.isOk

/-- Whether the latest operation of a run that got to the trial state succeeded. -/
def usable (tol : Tolerances α) (config : Configuration α) (calls : List (Call ν α)) : Bool :=
  observed tol config (noteUsable tol) true calls

/-- An operation that looks at bound nodes is noted by its result. -/
theorem noteUsable_of_trial (s : Session ν α) (usable : Bool) {c : Call ν α}
    {trial : ν → Displacement α} (hc : c.trial? = some trial) :
    noteUsable tol s usable c = match s.transformation.bound? with
      | .error _ => usable
      | .ok _ => (c.perform tol s.transformation).result.isOk := by
  cases c with
  | attach pair => cases hc
  | commit => cases hc
  | update trial' => rfl
  | revert trial' => rfl
  | reset trial' => rfl

/-- Every commit of a run came where the latest operation that got to the trial state had
succeeded. -/
def IsTimely (tol : Tolerances α) (config : Configuration α) (calls : List (Call ν α)) : Prop :=
  ∀ before after, calls = before ++ .commit :: after → usable tol config before = true

/-- One operation of a run succeeded and left the pose `p`. -/
def IsFound (tol : Tolerances α) (config : Configuration α) (calls : List (Call ν α))
    (p : Pose α) : Prop :=
  ∃ before c after, calls = before ++ c :: after
    ∧ (c.perform tol (run tol config before).transformation).result = .ok ()
    ∧ c.Finds (run tol config (before ++ [c])).transformation p

/-- Before any operation nothing is found. -/
theorem not_isFound_nil : ¬ IsFound tol config ([] : List (Call ν α)) p := by
  rintro ⟨before, c, after, hsplit, -⟩
  exact List.append_ne_nil_of_right_ne_nil before (List.cons_ne_nil c after) hsplit.symm

/-- What is found with one operation more was found before it, or is what that operation
leaves. -/
theorem isFound_append_iff {c : Call ν α} : IsFound tol config (calls ++ [c]) p
    ↔ IsFound tol config calls p
      ∨ ((c.perform tol (run tol config calls).transformation).result = .ok ()
        ∧ c.Finds ((run tol config calls).next tol c).transformation p) := by
  constructor
  · rintro ⟨before, c', after, hsplit, hresult, hfinds⟩
    rcases List.eq_nil_or_concat after with rfl | ⟨after, c'', rfl⟩
    · obtain ⟨rfl, hc⟩ := List.append_inj' hsplit rfl
      obtain rfl := List.singleton_inj.mp hc
      rw [run_append] at hfinds
      exact .inr ⟨hresult, hfinds⟩
    · rw [List.concat_eq_append, ← List.cons_append, ← List.append_assoc] at hsplit
      obtain ⟨rfl, -⟩ := List.append_inj' hsplit rfl
      exact .inl ⟨before, c', after, rfl, hresult, hfinds⟩
  · rintro (⟨before, c', after, rfl, hresult, hfinds⟩ | ⟨hresult, hfinds⟩)
    · exact ⟨before, c', after ++ [c], by simp, hresult, hfinds⟩
    · exact ⟨calls, c, [], rfl, hresult, by rwa [run_append]⟩

/-- Before any operation there is no commit. -/
theorem isTimely_nil : IsTimely tol config ([] : List (Call ν α)) := fun before after hsplit =>
  absurd hsplit.symm (List.append_ne_nil_of_right_ne_nil before (List.cons_ne_nil _ after))

/-- A run is timely with one operation more if it was before it, and the operation is no commit
or comes in time. -/
theorem isTimely_append_iff {c : Call ν α} : IsTimely tol config (calls ++ [c])
    ↔ IsTimely tol config calls ∧ (c = .commit → usable tol config calls = true) := by
  constructor
  · intro h
    refine ⟨?_, ?_⟩
    · rintro before after rfl
      exact h before (after ++ [c]) (by simp)
    · rintro rfl
      exact h calls [] rfl
  · rintro ⟨hcalls, hlast⟩ before after hsplit
    rcases List.eq_nil_or_concat after with rfl | ⟨after, c', rfl⟩
    · obtain ⟨rfl, hc⟩ := List.append_inj' hsplit rfl
      exact hlast (List.singleton_inj.mp hc)
    · rw [List.concat_eq_append, ← List.cons_append, ← List.append_assoc] at hsplit
      exact hcalls before after (List.append_inj' hsplit rfl).1

/-- After an accepted operation that looks at the nodes a commit comes in time. -/
theorem usable_of_accepted {c : Call ν α} {trial : ν → Displacement α} (hc : c.trial? = some trial)
    (hresult : (c.perform tol (run tol config calls).transformation).result = .ok ()) :
    usable tol config (calls ++ [c]) = true := by
  have hattach (pair : List (Option (ν × Node α))) : c ≠ .attach pair := by
    rintro rfl
    cases hc
  rw [usable, observed_append, noteUsable_of_trial _ _ hc]
  cases hbound : (run tol config calls).transformation.bound? with
  | error e =>
    rw [Call.perform_of_unbound hbound hattach] at hresult
    cases hresult
  | ok nodes =>
    rw [hresult]
    rfl

/-- What can be committed was found, and so was what is committed. -/
structure IsGrounded (tol : Tolerances α) (config : Configuration α) (calls : List (Call ν α))
    (s : Session ν α) (usable : Bool) : Prop where
  trial : s.transformation.stage ≠ .uninitialized → usable = true →
    IsFound tol config calls s.transformation.pose
  committed : s.transformation.stage ≠ .uninitialized →
    IsFound tol config calls s.transformation.committedPose

/-- An operation that changes neither the state nor the note. -/
theorem IsGrounded.of_same {usable usable' : Bool} (h : IsGrounded tol config calls s usable)
    {c : Call ν α} {s' : Session ν α} (hstate : s'.transformation = s.transformation)
    (hnote : usable' = usable) : IsGrounded tol config (calls ++ [c]) s' usable' := by
  subst hnote
  refine ⟨fun hstage husable => ?_, fun hstage => ?_⟩ <;> rw [hstate] at hstage ⊢
  · exact isFound_append_iff.mpr (.inl (h.trial hstage husable))
  · exact isFound_append_iff.mpr (.inl (h.committed hstage))

/-- **An operation that is refused late** leaves no pose to be committed. -/
theorem IsGrounded.of_refused {usable usable' : Bool} (h : IsGrounded tol config calls s usable)
    {c : Call ν α} {s' : Session ν α}
    (hstage : s'.transformation.stage ≠ .uninitialized → s.transformation.stage ≠ .uninitialized)
    (hcommitted : s'.transformation.committedPose = s.transformation.committedPose)
    (hnote : usable' = false) : IsGrounded tol config (calls ++ [c]) s' usable' := by
  subst hnote
  refine ⟨nofun, fun hstage' => ?_⟩
  rw [hcommitted]
  exact isFound_append_iff.mpr (.inl (h.committed (hstage hstage')))

variable {usable : Bool}

/-- An attachment keeps a run grounded. -/
theorem attach_isGrounded (h : IsGrounded tol config calls (run tol config calls) usable)
    (pair : List (Option (ν × Node α))) :
    IsGrounded tol config (calls ++ [.attach pair]) ((run tol config calls).next tol (.attach pair))
      (noteUsable tol (run tol config calls) usable (.attach pair)) := by
  set s := run tol config calls with hs
  by_cases hpair : ∃ m n, pair = [some m, some n]
  · obtain ⟨⟨i, ni⟩, ⟨j, nj⟩, rfl⟩ := hpair
    cases href : Transformation.referenceOf tol s.transformation.config
      ⟨ni.position, nj.position⟩ with
    | error e =>
      refine h.of_same (congrArg Outcome.state (Transformation.attach_of_error href)) ?_
      simp only [noteUsable, Call.positions?, href]
    | ok r =>
      have hnote : noteUsable tol s usable (.attach [some (i, ni), some (j, nj)])
          = (s.transformation.attach tol [some (i, ni), some (j, nj)]).result.isOk := by
        simp only [noteUsable, Call.positions?, href, Call.perform]
      rcases s.transformation.attach_pose_cases tol (i := i) (j := j) href with
        ⟨hresult, hcommitted, q, hq, hpose⟩ | ⟨⟨e, he⟩, hcommitted, hstage⟩
      · have hfound : IsFound tol config (calls ++ [.attach [some (i, ni), some (j, nj)]])
            (s.transformation.attach tol [some (i, ni), some (j, nj)]).state.pose :=
          isFound_append_iff.mpr <| .inr ⟨hresult, ⟨rfl, q, hq, hpose⟩⟩
        refine ⟨fun _ _ => hfound, fun _ => ?_⟩
        change IsFound tol config _ (s.transformation.attach tol _).state.committedPose
        rw [hcommitted]
        exact hfound
      · refine h.of_refused (fun hstage' => ?_) hcommitted ?_
        · rwa [← hstage]
        · rw [hnote, he]
          rfl
  · have hnot (m n : ν × Node α) : pair ≠ [some m, some n] := fun heq => hpair ⟨m, n, heq⟩
    refine h.of_same (congrArg Outcome.state (Transformation.attach_of_not_pair _ hnot)) ?_
    have hnone : (Call.attach pair).positions? = none := by
      unfold Call.positions?
      split
      · rename_i heq
        exact absurd (Call.attach.inj heq) (hnot _ _)
      · rfl
    simp only [noteUsable, hnone]

/-- An operation that looks at the nodes keeps a run grounded. -/
theorem trial_isGrounded (h : IsGrounded tol config calls (run tol config calls) usable)
    {c : Call ν α} {trial : ν → Displacement α} (hc : c.trial? = some trial) :
    IsGrounded tol config (calls ++ [c]) ((run tol config calls).next tol c)
      (noteUsable tol (run tol config calls) usable c) := by
  set s := run tol config calls with hs
  have hattach (pair : List (Option (ν × Node α))) : c ≠ .attach pair := by
    rintro rfl
    cases hc
  have hnote : noteUsable tol s usable c = _ := noteUsable_of_trial s usable hc
  cases hbound : s.transformation.bound? with
  | error e =>
    simp only [hbound] at hnote
    exact h.of_same (congrArg Outcome.state (Call.perform_of_unbound hbound hattach)) hnote
  | ok nodes =>
    simp only [hbound] at hnote
    have hstage := (Transformation.bound?_eq_ok_iff.mp hbound).1
    rcases c.perform_pose_cases tol hbound hc with
      ⟨hresult, hfinds, hcommitted⟩ | ⟨⟨e, he⟩, hcommitted⟩
    · have hfound : IsFound tol config (calls ++ [c]) (c.perform tol s.transformation).state.pose :=
        isFound_append_iff.mpr <| .inr ⟨hresult, hfinds⟩
      refine ⟨fun _ _ => hfound, fun _ => ?_⟩
      change IsFound tol config _ (c.perform tol s.transformation).state.committedPose
      rcases hcommitted with hkept | hnew
      · rw [hkept]
        exact isFound_append_iff.mpr (.inl (h.committed hstage))
      · rw [hnew]
        exact hfound
    · refine h.of_refused (fun _ => hstage) hcommitted ?_
      rw [hnote, he]
      rfl

/-- **A commit keeps a run grounded** if it is timely. -/
theorem commit_isGrounded (h : IsGrounded tol config calls (run tol config calls) usable)
    (husable : usable = true) :
    IsGrounded tol config (calls ++ [.commit]) ((run tol config calls).next tol .commit)
      (noteUsable tol (run tol config calls) usable .commit) := by
  set s := run tol config calls with hs
  cases hbound : s.transformation.bound? with
  | error e =>
    have hrefused : Call.perform tol s.transformation .commit = .fail s.transformation e :=
      Call.perform_of_unbound hbound nofun
    exact h.of_same (congrArg Outcome.state hrefused) rfl
  | ok nodes =>
    have hstate : (s.next tol .commit).transformation = s.transformation.snapshot :=
      congrArg Outcome.state (Transformation.commit_of_bound hbound)
    refine ⟨fun hstage _ => ?_, fun hstage => ?_⟩ <;> rw [hstate] at hstage ⊢
    · exact isFound_append_iff.mpr (.inl (h.trial hstage husable))
    · exact isFound_append_iff.mpr (.inl (h.trial hstage husable))

/-- **Every timely run is grounded.** -/
theorem run_isGrounded (h : IsTimely tol config calls) :
    IsGrounded tol config calls (run tol config calls) (Session.usable tol config calls) := by
  induction calls using List.reverseRecOn with
  | nil => exact ⟨fun hstage => absurd rfl hstage, fun hstage => absurd rfl hstage⟩
  | append_singleton calls c ih =>
    obtain ⟨hcalls, hlast⟩ := isTimely_append_iff.mp h
    have hbefore := ih hcalls
    rw [run_append, Session.usable, observed_append]
    cases c with
    | attach pair => exact attach_isGrounded hbefore pair
    | commit => exact commit_isGrounded hbefore (hlast rfl)
    | update trial => exact trial_isGrounded hbefore rfl
    | revert trial => exact trial_isGrounded hbefore rfl
    | reset trial => exact trial_isGrounded hbefore rfl

/-- A commit after an operation keeps the pose that it leaves, if the nodes are bound. -/
theorem committedPose_commit {c : Call ν α} {nodes : Ends ν}
    (hbound : (c.perform tol (run tol config calls).transformation).state.bound? = .ok nodes) :
    (run tol config (calls ++ [c, .commit])).transformation.committedPose
      = (c.perform tol (run tol config calls).transformation).state.pose := by
  have hrun : run tol config (calls ++ [c, .commit])
      = ((run tol config calls).next tol c).next tol .commit := by
    rw [← run_append, ← run_append, List.append_assoc]
    rfl
  rw [hrun]
  change (Transformation.commit _).state.committedPose = _
  rw [next, Transformation.commit_of_bound hbound]
  rfl

/-- **What is committed is the pose of one operation that succeeded**, after every run with timely
commits: an attachment, with both nodes at the orientation of the reference and nothing deformed,
or an evaluation. A commit is accepted after a refusal as well. After a refused update it keeps the
orientations to which that has turned the nodes, with the deformations of before, and after a
refused reset with none. After a refused revert it keeps what was committed, where the rotational
parts that the nodes report cancel; over the real numbers they always do
(`Vec3.cancels_real`). -/
theorem committedPose_isFound (tol : Tolerances α) (config : Configuration α)
    (calls : List (Call ν α)) :
    let t := (run tol config calls).transformation
    let committedAfter (c : Call ν α) :=
      (run tol config (calls ++ [c, .commit])).transformation.committedPose
    (IsTimely tol config calls → t.stage ≠ .uninitialized →
        IsFound tol config calls t.committedPose)
      ∧ ∀ nodes, t.bound? = .ok nodes → ∀ trial e,
        ((t.update tol trial).result = .error e →
          committedAfter (.update trial) = ⟨(t.update tol trial).state.versor, t.deformation⟩)
        ∧ ((t.reset tol trial).result = .error e →
          committedAfter (.reset trial) = ⟨(t.reset tol trial).state.versor, .zero⟩)
        ∧ ((t.revert tol trial).result = .error e →
          (t.displacement (nodes.map trial)).i.rot.Cancels →
          (t.displacement (nodes.map trial)).j.rot.Cancels →
          committedAfter (.revert trial) = t.committedPose) := by
  intro t committedAfter
  refine ⟨fun htimely hstage => (run_isGrounded htimely).committed hstage, ?_⟩
  intro nodes hbound trial e
  have hafter (c : Call ν α) (hc : ∀ pair, c ≠ .attach pair) :
      committedAfter c = (c.perform tol t).state.pose := by
    have hbinding := Call.perform_sameBinding tol t hc
    obtain ⟨hstage, hnodes⟩ := Transformation.bound?_eq_ok_iff.mp hbound
    exact committedPose_commit (Transformation.bound?_eq_ok_iff.mpr
      ⟨hbinding.stage hstage, hbinding.nodes.trans hnodes⟩)
  refine ⟨fun he => ?_, fun he => ?_, fun he hi hj => ?_⟩
  · rw [hafter (.update trial) nofun]
    rcases Transformation.update_pose_cases tol hbound trial with ⟨hok, -⟩ | ⟨-, -, hdeformation⟩
    · cases hok.symm.trans he
    · exact Pose.ext rfl hdeformation
  · rw [hafter (.reset trial) nofun]
    rcases Transformation.reset_pose_cases tol hbound trial with ⟨hok, -⟩ | ⟨-, hdeformation, -⟩
    · cases hok.symm.trans he
    · exact Pose.ext rfl hdeformation
  · rw [hafter (.revert trial) nofun]
    exact Transformation.revert_refused_pose hbound hi hj he

end Runs

/-! ### A straight element -/

section Straight

variable [SeriesAngle] {tol : Tolerances ℝ}

/-- The end node of the straight element comes to the other one, and turns by `v`. -/
noncomputable def collapse (v : Vec3 ℝ) : Ends (Displacement ℝ) := ⟨0, ⟨⟨-1, 0, 0⟩, v⟩⟩

/-- **The straight element refuses to collapse** once it has turned its nodes. -/
theorem update_collapse {t : Transformation Bool ℝ} (h0 : 0 ≤ tol.parallel)
    (h : t.IsSound tol ⟨0, ⟨1, 0, 0⟩⟩) (hbound : t.IsBound ⟨false, true⟩)
    (hoffset : t.reference.offset = .both 0) (hinitial : t.initial = .both 0) (v : Vec3 ℝ) :
    ∃ e, t.update tol (pairTrial (collapse v)) = .fail (t.moved ⟨0, v⟩) e := by
  have hd : t.displacement ((⟨false, true⟩ : Ends Bool).map (pairTrial (collapse v)))
      = collapse v := by
    rw [Transformation.displacement, hinitial]
    exact sub_zero (collapse v)
  exact Transformation.update_of_coinciding h0 h hbound hoffset hd (by ext <;> simp [collapse])

/-- The straight element after its nodes were bound. -/
theorem straight_attached (h0 : 0 ≤ tol.parallel) (h1 : tol.parallel < 1) :
    let t := (run tol straight [.attach [some (false, .ofPosition .null 0),
      some (true, .ofPosition .null ⟨1, 0, 0⟩)]]).transformation
    t.IsSound tol ⟨0, ⟨1, 0, 0⟩⟩ ∧ t.IsBound ⟨false, true⟩ ∧ t.reference.offset = .both 0
      ∧ t.initial = .both 0 ∧ t.seen = .both 0 ∧ t.nodalRotation = .both t.reference.axes := by
  intro t
  obtain ⟨r, href, hoffset, -⟩ := straight_reference h0 h1
  have hr := Transformation.referenceOf_eq_ok h0 href
  have hattached : t = (Transformation.ofConfiguration straight : Transformation Bool ℝ).attached
      ⟨false, true⟩ (.both 0) r := run_attach h0 (.ofPosition .null 0) _ href
  rw [hattached]
  exact ⟨Transformation.attached_isSound _ _ _ hr, Transformation.attached_isBound _ _ _ r,
    hoffset, attached_initial _ _ _ r, rfl, Transformation.attached_nodalRotation _ _ _ hr⟩

/-- A unit turn about the first axis is no turn of a frame onto itself. -/
theorem turn_unit_ne (h0 : 0 ≤ SeriesAngle.angle) (h1 : SeriesAngle.angle < 1) {m : Mat3 ℝ}
    (hm : m.IsRotation) : (Versor.turn ⟨1, 0, 0⟩).toMatrix * m ≠ m := by
  intro hturn
  have hone : (Versor.turn (⟨1, 0, 0⟩ : Vec3 ℝ)).toMatrix = 1 := by
    have hback := congrArg (· * m.transpose) hturn
    simpa only [mul_assoc, hm.mul_transpose, mul_one] using hback
  have hact := Versor.turn_smul_apply (e := ⟨1, 0, 0⟩) (u := ⟨0, 1, 0⟩) h0 h1
    (by simp [Vec3.dot_eq]) (by simp [Vec3.dot_eq])
  rw [one_smul, hone, Mat3.one_apply] at hact
  have hcos : 1 = Real.cos 1 := by simpa using congrArg Vec3.y hact
  linarith [Real.cos_one_le]

omit [SeriesAngle] in
/-- The twist is accepted, so a commit after it comes in time. -/
theorem twistedCalls_isTimely :
    letI : SeriesAngle := .exact
    IsTimely .standard straight (twistedCalls ++ [.commit]) := by
  let _ : SeriesAngle := .exact
  have h0 := Tolerances.standard_admissible_exact.parallel_nonneg
  obtain ⟨-, hbound, -⟩ := straight_attached h0 standard_parallel_lt_one
  obtain ⟨hcurrent, -⟩ := twistedSession_standard
  set first : Call Bool ℝ :=
    .attach [some (false, .ofPosition .null 0), some (true, .ofPosition .null ⟨1, 0, 0⟩)]
  have haccepted : ((run .standard straight [first]).transformation.update .standard
      (pairTrial (twisted 1))).result = .ok () := by
    rcases Transformation.update_pose_cases .standard hbound.bound? (pairTrial (twisted 1)) with
      ⟨hok, -⟩ | ⟨-, hstage, -⟩
    · exact hok
    · cases hstage.symm.trans hcurrent
  have hcalls : twistedCalls = [] ++ [first] ++ [.update (pairTrial (twisted 1))] := rfl
  rw [hcalls]
  refine isTimely_append_iff.mpr ⟨?_, fun _ => usable_of_accepted rfl haccepted⟩
  rw [isTimely_append_iff, isTimely_append_iff]
  exact ⟨⟨isTimely_nil, nofun⟩, nofun⟩

omit [SeriesAngle] in
/-- What is committed of the twisted element is its twist, also after its nodes have come to one
place: that update is refused, and its deformations are those of before. -/
theorem committedPose_isFound_twisted :
    letI : SeriesAngle := .exact
    let s := run .standard straight (twistedCalls ++ [.commit])
    let collapsed := run .standard straight
      (twistedCalls ++ [.update (pairTrial (collapse 0)), .commit])
    IsTimely .standard straight (twistedCalls ++ [.commit])
      ∧ IsFound .standard straight (twistedCalls ++ [.commit]) s.transformation.committedPose
      ∧ s.transformation.committed = twisted 1
      ∧ collapsed.transformation.committed = twisted 1 := by
  let _ : SeriesAngle := .exact
  have h0 := Tolerances.standard_admissible_exact.parallel_nonneg
  intro s collapsed
  obtain ⟨hsound, hbound, hoffset, hinitial, -⟩ := straight_attached h0 standard_parallel_lt_one
  have hkeeps := Transformation.update_keeps .standard (pairTrial (twisted 1))
    (run .standard straight [twistedCalls[0]]).transformation
  obtain ⟨hsound', hbound', -⟩ :=
    Transformation.update_sound h0 hsound hbound (pairTrial (twisted 1))
  obtain ⟨e, hrefused⟩ := update_collapse h0 hsound' hbound'
    ((congrArg Reference.offset hkeeps.reference).trans hoffset) (hkeeps.initial.trans hinitial) 0
  set t := (run .standard straight twistedCalls).transformation with ht
  have hdeformation : t.deformation = twisted 1 := (twistedSession_current le_rfl one_pos h0
    Tolerances.standard_parallel_lt_cos).2.2.2
  have hcommit : s.transformation = t.snapshot :=
    congrArg Outcome.state (Transformation.commit_of_bound hbound'.bound?)
  obtain ⟨hfound, -⟩ := committedPose_isFound .standard straight (twistedCalls ++ [.commit])
  obtain ⟨-, hafter⟩ := committedPose_isFound .standard straight twistedCalls
  have hcollapsed : collapsed.transformation.committedPose = ⟨_, t.deformation⟩ :=
    (hafter _ hbound'.bound? (pairTrial (collapse 0)) e).1 (congrArg Outcome.result hrefused)
  refine ⟨twistedCalls_isTimely, hfound twistedCalls_isTimely ?_, ?_, ?_⟩
  · change s.transformation.stage ≠ _
    rw [hcommit]
    exact hbound'.stage
  · rw [hcommit]
    exact hdeformation
  · exact (congrArg Pose.deformation hcollapsed).trans hdeformation

omit [SeriesAngle] in
/-- **A commit after a refused update** is accepted, and may keep a pose that no operation has
found: the nodes of the straight element come to one place, one of them turned, and the
deformations stay those of the attachment. -/
theorem commit_of_refused_update :
    letI : SeriesAngle := .exact
    let calls : List (Call Bool ℝ) :=
      [.attach [some (false, .ofPosition .null 0), some (true, .ofPosition .null ⟨1, 0, 0⟩)],
        .update (pairTrial (collapse ⟨1, 0, 0⟩)), .commit]
    (run .standard straight calls).transformation.stage ≠ .uninitialized
      ∧ ¬ IsFound .standard straight calls
        (run .standard straight calls).transformation.committedPose := by
  let _ : SeriesAngle := .exact
  intro calls
  have h0 := Tolerances.standard_admissible_exact.parallel_nonneg
  obtain ⟨hsound, hbound, hoffset, hinitial, hseen, hrotation⟩ :=
    straight_attached h0 standard_parallel_lt_one
  set t := (run .standard straight [.attach [some (false, .ofPosition .null 0),
    some (true, .ofPosition .null ⟨1, 0, 0⟩)]]).transformation with ht
  obtain ⟨e, hrefused⟩ := update_collapse h0 hsound hbound hoffset hinitial ⟨1, 0, 0⟩
  have hstage : (t.moved ⟨0, ⟨1, 0, 0⟩⟩).stage ≠ .uninitialized := by
    intro hstage
    cases hstage
  have hbound' : (t.moved ⟨0, ⟨1, 0, 0⟩⟩).bound? = .ok ⟨false, true⟩ :=
    Transformation.bound?_eq_ok_iff.mpr ⟨hstage, hbound.nodes⟩
  have hrun : (run .standard straight calls).transformation
      = (t.moved ⟨0, ⟨1, 0, 0⟩⟩).snapshot := by
    change (Transformation.commit (t.update .standard _).state).state = _
    rw [hrefused, Outcome.fail, Transformation.commit_of_bound hbound']
    rfl
  rw [hrun, Transformation.committedPose_snapshot]
  refine ⟨hstage, ?_⟩
  have hcalls : calls = [] ++ [calls[0]] ++ [calls[1]] ++ [.commit] := rfl
  rw [hcalls, isFound_append_iff, isFound_append_iff, isFound_append_iff]
  rintro (((hnil | ⟨-, hfinds⟩) | ⟨hresult, -⟩) | ⟨-, hfinds⟩)
  · exact not_isFound_nil hnil
  · -- the attachment has left both nodes at one orientation
    obtain ⟨-, q, -, hpose⟩ := hfinds
    have hversor : (t.moved ⟨0, ⟨1, 0, 0⟩⟩).versor = .both q := congrArg Pose.versor hpose
    have hsame : (t.moved ⟨0, ⟨1, 0, 0⟩⟩).nodalRotation.j
        = (t.moved ⟨0, ⟨1, 0, 0⟩⟩).nodalRotation.i := by
      rw [Transformation.nodalRotation, hversor]
      rfl
    rw [Transformation.moved_nodalRotation, hrotation, hseen] at hsame
    refine turn_unit_ne le_rfl one_pos hsound.reference.isRotation ?_
    simpa [Ends.both, Versor.turn_zero, Versor.toMatrix_identity] using hsame
  · change (t.update .standard _).result = _ at hresult
    rw [hrefused] at hresult
    cases hresult
  · exact hfinds

end Straight

end Session

end Corotation
