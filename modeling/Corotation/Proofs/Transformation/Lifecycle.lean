import Corotation.Transformation.Lifecycle
/-!
# The lifecycle over any scalars

What each operation of the lifecycle can do, with no law of arithmetic assumed. An
evaluation succeeds in one way (`evaluate_eq_ok_iff`), and with a result that
depends on the orientations, the reference and the translations alone
(`evaluate_congr`). An update is an evaluation of the turned state, or fails in the
stage `initialized` (`update_outcome`); reverts and resets are updates of other
states.

None of them touches the nodes, the reference or what was captured, and updates and
reverts keep the commit as well, whether they succeed or not (`Keeps`).
-/

namespace Corotation

namespace Outcome

variable {α σ β γ : Type} (s : σ) (next : σ → β → Outcome α σ γ)

/-- After a success without remarks the second operation is all there is. -/
theorem ok_andThen (b : β) : (Outcome.ok s b).andThen next = next s b := rfl

/-- After a failure there is no second operation. -/
theorem fail_andThen (e : Failure α) : (Outcome.fail s e).andThen next = .fail s e := rfl

end Outcome

namespace Transformation

variable {ν α : Type} [Scalar α] {tol : Tolerances α} {t t' u : Transformation ν α}
variable {d d' : Ends (Displacement α)} {nodes : Ends ν}

omit [Scalar α] in
theorem bound?_eq_ok_iff :
    t.bound? = .ok nodes ↔ t.stage ≠ .uninitialized ∧ t.nodes = some nodes := by
  unfold bound?
  cases t.stage <;> cases t.nodes <;> simp

omit [Scalar α] in
theorem bound?_of_uninitialized (h : t.stage = .uninitialized) :
    t.bound? = .error (.uninitialized t.tag) := by
  unfold bound?
  rw [h]

/-! ## Evaluations -/

section Evaluation

open Scalar

/-- The chord at the present orientations. -/
def chordAt (t : Transformation ν α) (d : Ends (Displacement α)) : Vec3 α :=
  t.chordOf d (t.armsOf t.nodalRotation)

/-- The local deformations of a chord and two local rotations. -/
def deformationAt (t : Transformation ν α) (d : Ends (Displacement α)) (theta : Ends (Vec3 α)) :
    ElementVector α := deformationOf ((t.chordAt d).norm - t.reference.length) theta

/-- **All that an evaluation does** when it succeeds. -/
theorem evaluate_eq_ok_iff : t.evaluate tol d = .ok u () ↔ ∃ triad theta,
    ¬ (t.chordAt d).norm ≤ 0 ∧ Triad.ofRotations tol t.nodalRotation (t.chordAt d) = .ok triad
      ∧ localRotations triad.axes t.nodalRotation = .ok theta
      ∧ u = { t with
          triad, previous := t.deformation, deformation := t.deformationAt d theta,
          deformedLength := (t.chordAt d).norm, arm := t.armsOf t.nodalRotation,
          tangent := some (ElementMatrix.mul
            (triad.deformationTangent tol (t.deformationAt d theta))
            (link (t.armsOf t.nodalRotation))),
          stage := .current } := by
  have hne (t' : Transformation ν α) (e : Failure α) :
      (Outcome.fail t' e : Outcome α (Transformation ν α) Unit) ≠ .ok u () := nofun
  have heq {t' : Transformation ν α} :
      (Outcome.ok t' () : Outcome α (Transformation ν α) Unit) = .ok u () ↔ u = t' :=
    ⟨fun h => (congrArg Outcome.state h).symm, fun h => by rw [h]⟩
  unfold evaluate chordAt deformationAt
  by_cases hlength : (t.chordOf d (t.armsOf t.nodalRotation)).norm ≤ 0
  · simp [hlength, hne]
  cases htriad : Triad.ofRotations tol t.nodalRotation
    (t.chordOf d (t.armsOf t.nodalRotation)) with
  | error e => simp [hlength, hne, htriad]
  | ok triad =>
    cases htheta : localRotations triad.axes t.nodalRotation with
    | error e => simp [hlength, hne, htriad, htheta]
    | ok theta => simp [hlength, heq, htriad, htheta, chordAt]

/-- A failed evaluation leaves at most another triad behind. -/
theorem evaluate_outcome (tol : Tolerances α) (t : Transformation ν α)
    (d : Ends (Displacement α)) : (∃ u, t.evaluate tol d = .ok u ())
      ∨ ∃ triad e, t.evaluate tol d = .fail { t with triad } e := by
  unfold evaluate
  simp only
  split
  · exact .inr ⟨t.triad, _, rfl⟩
  split
  · exact .inr ⟨t.triad, _, rfl⟩
  split
  · exact .inr ⟨_, _, rfl⟩
  · exact .inl ⟨_, rfl⟩

end Evaluation

/-- A state with what another one has cached. -/
def withCache (t u : Transformation ν α) : Transformation ν α :=
  { t with
    triad := u.triad, previous := t.deformation, deformation := u.deformation,
    deformedLength := u.deformedLength, arm := u.arm, tangent := u.tangent, stage := .current }

/-- **An evaluation depends on the orientations, the reference and the
translations alone.** -/
theorem evaluate_congr (hreference : t'.reference = t.reference) (hversor : t'.versor = t.versor)
    (hi : d'.i.lin = d.i.lin) (hj : d'.j.lin = d.j.lin) (h : t.evaluate tol d = .ok u ()) :
    t'.evaluate tol d' = .ok (t'.withCache u) () := by
  obtain ⟨triad, theta, hlength, htriad, htheta, rfl⟩ := evaluate_eq_ok_iff.mp h
  have hrotation : t'.nodalRotation = t.nodalRotation := by
    rw [nodalRotation, hversor, nodalRotation]
  have harm : t'.armsOf t.nodalRotation = t.armsOf t.nodalRotation := by
    rw [armsOf, hreference, armsOf]
  have hchord : t'.chordAt d' = t.chordAt d := by
    simp only [chordAt, chordOf, hrotation, harm, hreference, hi, hj]
  have hdeformation : t'.deformationAt d' theta = t.deformationAt d theta := by
    rw [deformationAt, hchord, hreference, deformationAt]
  refine evaluate_eq_ok_iff.mpr ⟨triad, theta, ?_, ?_, ?_, ?_⟩
  · rwa [hchord]
  · rwa [hchord, hrotation]
  · rwa [hrotation]
  · rw [hchord, hdeformation, hrotation, harm]
    rfl

/-! ## Updates -/

/-- The turns change orientations and what was seen, and end having seen all if
they succeed. -/
theorem advance_outcome (t : Transformation ν α) (rot : Ends (Vec3 α)) :
    (∃ q, t.advance rot = .ok { t with seen := rot, versor := q } ())
      ∨ ∃ seen q e, t.advance rot = .fail { t with seen, versor := q } e := by
  unfold advance
  simp only
  split
  · exact .inr ⟨_, t.versor, _, rfl⟩
  split
  · exact .inr ⟨_, _, _, rfl⟩
  · exact .inl ⟨_, rfl⟩

/-- An update of a bound transformation turns the nodes and then evaluates. -/
theorem update_of_bound (hbound : t.bound? = .ok nodes) (trial : ν → Displacement α) :
    t.update tol trial = ({ t with stage := .initialized }.advance
      ((t.displacement (nodes.map trial)).map Screw.rot)).andThen
        fun t' _ => t'.evaluate tol (t.displacement (nodes.map trial)) := by
  unfold update
  rw [hbound]
  rfl

/-- **All that an update does**: it succeeds with an evaluation of the turned state
at what the nodes report, or fails in the stage `initialized`. -/
theorem update_outcome (tol : Tolerances α) (hbound : t.bound? = .ok nodes)
    (trial : ν → Displacement α) :
    let d := t.displacement (nodes.map trial)
    (∃ q u, { t with stage := .initialized, seen := d.map Screw.rot, versor := q }.evaluate tol d
        = .ok u () ∧ t.update tol trial = .ok u ())
      ∨ ∃ seen q triad e, t.update tol trial
        = .fail { t with stage := .initialized, seen, versor := q, triad } e := by
  intro d
  rw [update_of_bound hbound]
  rcases advance_outcome { t with stage := .initialized } (d.map Screw.rot) with
    ⟨q, hadvance⟩ | ⟨seen, q, e, hadvance⟩
  · rw [hadvance, Outcome.ok_andThen]
    rcases evaluate_outcome tol
      { t with stage := .initialized, seen := d.map Screw.rot, versor := q } d with
      ⟨u, heq⟩ | ⟨triad, e, heq⟩
    · exact .inl ⟨q, u, heq, heq⟩
    · exact .inr ⟨_, q, triad, e, heq⟩
  · rw [hadvance, Outcome.fail_andThen]
    exact .inr ⟨seen, q, t.triad, e, rfl⟩

/-! ## What operations keep -/

/-- The second state has what the first one has from its nodes, its reference and
its latest commit, and is initialized if the first one is. -/
structure Keeps (t t' : Transformation ν α) : Prop where
  config : t'.config = t.config
  nodes : t'.nodes = t.nodes
  capture : t'.capture = t.capture
  initial : t'.initial = t.initial
  reference : t'.reference = t.reference
  committed : t'.committed = t.committed
  committedVersor : t'.committedVersor = t.committedVersor
  stage : t.stage ≠ .uninitialized → t'.stage ≠ .uninitialized

namespace Keeps

omit [Scalar α]

theorem refl (t : Transformation ν α) : Keeps t t := ⟨rfl, rfl, rfl, rfl, rfl, rfl, rfl, id⟩

theorem trans {t'' : Transformation ν α} (h : Keeps t t') (h' : Keeps t' t'') : Keeps t t'' where
  config := h'.config.trans h.config
  nodes := h'.nodes.trans h.nodes
  capture := h'.capture.trans h.capture
  initial := h'.initial.trans h.initial
  reference := h'.reference.trans h.reference
  committed := h'.committed.trans h.committed
  committedVersor := h'.committedVersor.trans h.committedVersor
  stage hs := h'.stage (h.stage hs)

/-- The nodes are found as before. -/
theorem bound? (h : Keeps t t') (hbound : t.bound? = .ok nodes) : t'.bound? = .ok nodes := by
  obtain ⟨hstage, hnodes⟩ := bound?_eq_ok_iff.mp hbound
  exact bound?_eq_ok_iff.mpr ⟨h.stage hstage, h.nodes.trans hnodes⟩

end Keeps

theorem evaluate_keeps (tol : Tolerances α) (t : Transformation ν α)
    (d : Ends (Displacement α)) : Keeps t (t.evaluate tol d).state := by
  rcases evaluate_outcome tol t d with ⟨u, heq⟩ | ⟨triad, e, heq⟩
  · obtain ⟨_, _, -, -, -, rfl⟩ := evaluate_eq_ok_iff.mp heq
    rw [heq]
    exact ⟨rfl, rfl, rfl, rfl, rfl, rfl, rfl, fun _ => nofun⟩
  · rw [heq]
    exact ⟨rfl, rfl, rfl, rfl, rfl, rfl, rfl, id⟩

/-- **An update keeps the commit**, whether it succeeds or not. -/
theorem update_keeps (tol : Tolerances α) (trial : ν → Displacement α) (t : Transformation ν α) :
    Keeps t (t.update tol trial).state := by
  cases hbound : t.bound? with
  | error e =>
    unfold update
    rw [hbound]
    exact .refl t
  | ok nodes =>
    rcases update_outcome tol hbound trial with ⟨q, u, heval, heq⟩ | ⟨_, q, _, e, heq⟩
    · have hkeeps := evaluate_keeps tol
        { t with
          stage := .initialized, seen := (t.displacement (nodes.map trial)).map Screw.rot,
          versor := q } (t.displacement (nodes.map trial))
      rw [heval] at hkeeps
      rw [heq]
      exact ⟨hkeeps.config, hkeeps.nodes, hkeeps.capture, hkeeps.initial, hkeeps.reference,
        hkeeps.committed, hkeeps.committedVersor, fun _ => hkeeps.stage nofun⟩
    · rw [heq]
      exact ⟨rfl, rfl, rfl, rfl, rfl, rfl, rfl, fun _ => nofun⟩

/-! ## Commits, reverts and resets -/

omit [Scalar α] in
theorem commit_of_bound (hbound : t.bound? = .ok nodes) : t.commit = .ok t.snapshot () := by
  unfold commit
  rw [hbound]

/-- A revert of a bound transformation updates the restored state. -/
theorem revert_of_bound (hbound : t.bound? = .ok nodes) (trial : ν → Displacement α) :
    t.revert tol trial = (t.restore (nodes.map trial)).update tol trial := by
  unfold revert
  rw [hbound]

/-- **A revert keeps the commit**, whether it succeeds or not. -/
theorem revert_keeps (tol : Tolerances α) (trial : ν → Displacement α) (t : Transformation ν α) :
    Keeps t (t.revert tol trial).state := by
  cases hbound : t.bound? with
  | error e =>
    unfold revert
    rw [hbound]
    exact .refl t
  | ok nodes =>
    have hrestore : Keeps t (t.restore (nodes.map trial)) :=
      ⟨rfl, rfl, rfl, rfl, rfl, rfl, rfl, id⟩
    rw [revert_of_bound hbound]
    exact hrestore.trans (update_keeps tol trial _)

/-- The state that a reset updates. -/
def backAtStart (t : Transformation ν α) (q : Versor α) : Transformation ν α :=
  { t with deformation := .zero, versor := .both q, seen := .both .zero }

/-- A reset updates the state at the start, and commits if that succeeds. -/
theorem reset_of_bound (hbound : t.bound? = .ok nodes) {q : Versor α}
    (hq : Versor.ofMatrix t.reference.axes = .ok q) (trial : ν → Displacement α) :
    t.reset tol trial = ((t.backAtStart q).update tol trial).andThen fun t' _ => t'.commit := by
  unfold reset
  simp only [hbound, hq]
  rfl

/-- What a reset leaves behind, in two cases. -/
theorem reset_outcome (tol : Tolerances α) (hbound : t.bound? = .ok nodes) {q : Versor α}
    (hq : Versor.ofMatrix t.reference.axes = .ok q) (trial : ν → Displacement α) :
    (∃ u, (t.backAtStart q).update tol trial = .ok u () ∧ t.reset tol trial = .ok u.snapshot ())
      ∨ ∃ u e, u.stage = .initialized ∧ u.reference = t.reference
        ∧ t.reset tol trial = .fail u e := by
  have hstart : (t.backAtStart q).bound? = .ok nodes := hbound
  have hkeeps := update_keeps tol trial (t.backAtStart q)
  rw [reset_of_bound hbound hq]
  rcases update_outcome tol hstart trial with ⟨_, u, -, heq⟩ | ⟨_, _, _, e, heq⟩
  · rw [heq] at hkeeps
    rw [heq, Outcome.ok_andThen]
    exact .inl ⟨u, rfl, commit_of_bound (hkeeps.bound? hstart)⟩
  · rw [heq, Outcome.fail_andThen]
    refine .inr ⟨_, e, ?_, ?_, rfl⟩ <;> rfl

/-! ## Attachments -/

/-- Anything but two nodes is refused. -/
theorem attach_of_not_pair (t : Transformation ν α) {nodes : List (Option (ν × Node α))}
    (h : ∀ m n, nodes ≠ [some m, some n]) : t.attach tol nodes = .fail t (.missingNode t.tag) := by
  unfold attach
  split
  · exact absurd rfl (h _ _)
  · rfl

/-- Without a reference geometry an attachment is refused. -/
theorem attach_of_error {i j : ν} {ni nj : Node α} {e : Failure α}
    (h : referenceOf tol t.config ⟨ni.position, nj.position⟩ = .error e) :
    t.attach tol [some (i, ni), some (j, nj)] = .fail t e := by
  unfold attach
  simp only [h]

/-- An accepted attachment leaves the stage `initialized`, and a reference that has
a versor. -/
theorem attach_ok {pair : List (Option (ν × Node α))}
    (h : (t.attach tol pair).result = .ok ()) : (t.attach tol pair).state.stage = .initialized
      ∧ ∃ q, Versor.ofMatrix (t.attach tol pair).state.reference.axes = .ok q := by
  have hsettle (t : Transformation ν α) (hok : (t.settle tol).result = .ok ()) :
      (t.settle tol).state.stage = .initialized
        ∧ ∃ q, Versor.ofMatrix (t.settle tol).state.reference.axes = .ok q := by
    unfold settle at hok ⊢
    cases hq : Versor.ofMatrix t.reference.axes with
    | error e =>
      simp only [hq] at hok
      cases hok
    | ok q =>
      simp only [hq, start] at hok ⊢
      cases htriad : Triad.ofReference tol t.reference.chord t.reference.axes with
      | error e =>
        simp only [htriad] at hok
        cases hok
      | ok triad =>
        exact ⟨rfl, q, hq⟩
  unfold attach at h ⊢
  split at h
  · split at h
    · cases h
    · exact hsettle _ h
  · cases h

end Transformation

end Corotation
