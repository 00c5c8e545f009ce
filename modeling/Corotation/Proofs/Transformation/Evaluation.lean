import Corotation.Proofs.Element.Linearization
import Corotation.Proofs.Transformation.Lifecycle
import Corotation.Transformation.Projection
/-!
# Updates over the real numbers

With versors at both nodes an update can be refused for one reason only: the
deformed chord and the nodal y-axes do not determine a triad. Everything else
it does is a function of the state, so an evaluation is `evaluated` where it
succeeds and leaves the state alone where it does not (`evaluate_cases`), and
an update is an evaluation after both nodes were turned by the difference to
what they had reported (`update_eq`).

`IsCurrent` says that all that is cached belongs to one evaluation of the
present orientations at one pair of displacements.
-/

namespace Corotation

namespace Transformation

variable [SeriesAngle] {ν : Type} {tol : Tolerances ℝ}

/-! ## The kinematics of a state -/

section Kinematics

variable (t : Transformation ν ℝ) (d : Ends (Displacement ℝ))

/-- The y-axes of the nodes. -/
noncomputable def nodalAxes : Ends (Vec3 ℝ) := t.nodalRotation.map Mat3.c2

/-- The offset arms at the present orientations. -/
noncomputable def deformedArm : Ends (Vec3 ℝ) := t.armsOf t.nodalRotation

/-- The deformed chord at the present orientations. -/
noncomputable def deformedChord : Vec3 ℝ := t.chordOf d t.deformedArm

/-- The triad of the deformed chord. -/
noncomputable def deformedTriad : Triad ℝ := .between t.nodalAxes (t.deformedChord d)

/-- The rotations of the nodes relative to a triad. -/
noncomputable def relativeRotation (e : Triad ℝ) : Ends (Mat3 ℝ) :=
  t.nodalRotation.map (e.axes.transpose * ·)

/-- The local deformations at the present orientations. -/
noncomputable def localDeformation : ElementVector ℝ :=
  deformationOf ((t.deformedChord d).norm - t.reference.length)
    ((t.relativeRotation (t.deformedTriad d)).map Versor.logarithm)

/-- The state after a successful evaluation. -/
noncomputable def evaluated (tol : Tolerances ℝ) : Transformation ν ℝ :=
  { t with
    triad := t.deformedTriad d, previous := t.deformation,
    deformation := t.localDeformation d, deformedLength := (t.deformedChord d).norm,
    arm := t.deformedArm,
    tangent := some (ElementMatrix.mul
      ((t.deformedTriad d).deformationTangent tol (t.localDeformation d)) (link t.deformedArm)),
    stage := .current }

/-- The map from nodal to local increments that belongs to what is cached. -/
noncomputable def tangentMap (tol : Tolerances ℝ) : ElementMatrix ℝ :=
  ElementMatrix.mul (t.triad.deformationTangent tol t.deformation) (link t.arm)

end Kinematics

variable {t : Transformation ν ℝ} {d : Ends (Displacement ℝ)}

/-- An element without offsets has no arms. -/
theorem deformedArm_of_offset (h : t.reference.offset = .both 0) : t.deformedArm = .both 0 := by
  rw [deformedArm, armsOf, h]
  exact Ends.ext (Mat3.apply_zero _) (Mat3.apply_zero _)

/-- The orientations of both nodes are versors, the trial and the committed
ones. -/
structure HasVersors (t : Transformation ν ℝ) : Prop where
  trial_i : t.versor.i.square = 1
  trial_j : t.versor.j.square = 1
  committed_i : t.committedVersor.i.square = 1
  committed_j : t.committedVersor.j.square = 1

theorem HasVersors.isRotation (h : HasVersors t) :
    t.nodalRotation.i.IsRotation ∧ t.nodalRotation.j.IsRotation :=
  ⟨Versor.isRotation_toMatrix h.trial_i, Versor.isRotation_toMatrix h.trial_j⟩

/-- The present orientations and the displacements determine a triad. -/
def Determines (tol : Tolerances ℝ) (t : Transformation ν ℝ) (d : Ends (Displacement ℝ)) : Prop :=
  Triad.Determined tol t.nodalAxes (t.deformedChord d)

/-! ## Evaluations -/

/-- Relative to a rotation both local rotations have rotation vectors. -/
theorem localRotations_eq (h : HasVersors t) {e : Triad ℝ} (he : e.axes.IsRotation) :
    localRotations e.axes t.nodalRotation
      = .ok ((t.relativeRotation e).map Versor.logarithm) := by
  obtain ⟨hi, hj⟩ := h.isRotation
  unfold localRotations
  rw [Versor.rotationVector_eq (he.transpose.mul hi),
    Versor.rotationVector_eq (he.transpose.mul hj)]
  rfl

/-- With axes that are a rotation the triad is all that an evaluation needs. -/
theorem evaluate_of_isRotation (h : HasVersors t) (hdet : Determines tol t d)
    (he : (t.deformedTriad d).axes.IsRotation) :
    t.evaluate tol d = .ok (t.evaluated d tol) () := by
  have htriad : Triad.ofRotations tol t.nodalRotation (t.deformedChord d)
      = .ok (t.deformedTriad d) := Triad.ofAxes_eq hdet
  refine evaluate_eq_ok_iff.mpr ⟨_, _, ?_, htriad, localRotations_eq h he, rfl⟩
  rw [Scalar.le_real]
  exact not_le.mpr hdet.length_pos

/-- **An evaluation succeeds exactly where a triad is determined**, and a
failed one leaves the state as it was. -/
theorem evaluate_cases (h0 : 0 ≤ tol.parallel) (h : HasVersors t) :
    (Determines tol t d ∧ t.evaluate tol d = .ok (t.evaluated d tol) ())
      ∨ (¬ Determines tol t d ∧ ∃ e, t.evaluate tol d = .fail t e) := by
  by_cases hdet : Determines tol t d
  · exact .inl ⟨hdet, evaluate_of_isRotation h hdet (Triad.isFrame_between h0 hdet).isRotation⟩
  · refine .inr ⟨hdet, ?_⟩
    have hchord : t.chordOf d (t.armsOf t.nodalRotation) = t.deformedChord d := rfl
    unfold evaluate
    simp only [Scalar.le_real, hchord]
    split
    · exact ⟨_, rfl⟩
    · cases htriad : Triad.ofRotations tol t.nodalRotation (t.deformedChord d) with
      | error e => exact ⟨e, rfl⟩
      | ok triad => exact absurd (Triad.determined_of_ofAxes htriad) hdet

/-! ## Updates -/

/-- An orientation is turned by the difference, also where the difference is
zero. -/
theorem turned_eq {q : Versor ℝ} (h : q.square = 1) (alpha seen : Vec3 ℝ) :
    turned alpha seen q = .ok (Versor.hamilton (Versor.turn (alpha - seen)) q) := by
  unfold turned
  simp only [Scalar.isZero_real]
  split
  · rename_i hzero
    rw [Vec3.norm_eq_zero.mp hzero, Versor.turn_zero, Versor.hamilton_identity]
  · exact Versor.compose_eq _ h

/-- The state before an evaluation: the nodes turned to the rotation
components `rot`. -/
noncomputable def moved (t : Transformation ν ℝ) (rot : Ends (Vec3 ℝ)) : Transformation ν ℝ :=
  { t with
    stage := .initialized, seen := rot,
    versor := ⟨Versor.hamilton (Versor.turn (rot.i - t.seen.i)) t.versor.i,
      Versor.hamilton (Versor.turn (rot.j - t.seen.j)) t.versor.j⟩ }

theorem HasVersors.moved (h : HasVersors t) (rot : Ends (Vec3 ℝ)) : HasVersors (t.moved rot) :=
  ⟨Versor.hamilton_turn_square _ h.trial_i, Versor.hamilton_turn_square _ h.trial_j,
    h.committed_i, h.committed_j⟩

theorem HasVersors.evaluated (h : HasVersors t) (d : Ends (Displacement ℝ)) :
    HasVersors (t.evaluated d tol) := ⟨h.trial_i, h.trial_j, h.committed_i, h.committed_j⟩

omit [SeriesAngle] in
theorem HasVersors.snapshot (h : HasVersors t) : HasVersors t.snapshot :=
  ⟨h.trial_i, h.trial_j, h.trial_i, h.trial_j⟩

theorem HasVersors.restore (h : HasVersors t) (trial : Ends (Displacement ℝ)) :
    HasVersors (t.restore trial) :=
  ⟨h.committed_i, h.committed_j, h.committed_i, h.committed_j⟩

theorem HasVersors.backAtStart (h : HasVersors t) {q : Versor ℝ} (hq : q.square = 1) :
    HasVersors (t.backAtStart q) := ⟨hq, hq, h.committed_i, h.committed_j⟩

/-- The rotation of a node after a turn. -/
theorem moved_nodalRotation (t : Transformation ν ℝ) (rot : Ends (Vec3 ℝ)) :
    (t.moved rot).nodalRotation =
      ⟨(Versor.turn (rot.i - t.seen.i)).toMatrix * t.nodalRotation.i,
       (Versor.turn (rot.j - t.seen.j)).toMatrix * t.nodalRotation.j⟩ :=
  Ends.ext (Versor.toMatrix_hamilton _ _) (Versor.toMatrix_hamilton _ _)

/-- The turns are never refused. -/
theorem advance_eq (h : HasVersors t) (rot : Ends (Vec3 ℝ)) :
    { t with stage := .initialized }.advance rot = .ok (t.moved rot) () := by
  unfold advance
  simp only [turned_eq h.trial_i, turned_eq h.trial_j]
  rfl

/-- A transformation that names two nodes and is past its initialization. -/
structure IsBound (t : Transformation ν ℝ) (nodes : Ends ν) : Prop where
  stage : t.stage ≠ .uninitialized
  nodes : t.nodes = some nodes

omit [SeriesAngle] in
theorem IsBound.bound? {nodes : Ends ν} (h : IsBound t nodes) : t.bound? = .ok nodes :=
  bound?_eq_ok_iff.mpr ⟨h.stage, h.nodes⟩

/-- **An update is an evaluation after the turns.** -/
theorem update_eq (h : HasVersors t) {nodes : Ends ν} (hbound : IsBound t nodes)
    (trial : ν → Displacement ℝ) :
    t.update tol trial = (t.moved ((t.displacement (nodes.map trial)).map Screw.rot)).evaluate tol
      (t.displacement (nodes.map trial)) := by
  rw [update_of_bound hbound.bound?, advance_eq h, Outcome.ok_andThen]

/-! ## The current stage -/

/-- **All that is cached belongs to one evaluation** of the present
orientations, at the displacements `d`. -/
structure IsCurrent (tol : Tolerances ℝ) (t : Transformation ν ℝ)
    (d : Ends (Displacement ℝ)) : Prop where
  stage : t.stage = .current
  seen : t.seen = d.map Screw.rot
  determines : Determines tol t d
  arm : t.arm = t.deformedArm
  triad : t.triad = t.deformedTriad d
  length : t.deformedLength = (t.deformedChord d).norm
  deformation : t.deformation = t.localDeformation d
  tangent : t.tangent? = .ok (t.tangentMap tol)

/-- An update that succeeds leaves a current state. -/
theorem isCurrent_evaluated {rot : Ends (Vec3 ℝ)} (hrot : rot = d.map Screw.rot)
    (hdet : Determines tol (t.moved rot) d) :
    IsCurrent tol ((t.moved rot).evaluated d tol) d where
  stage := rfl
  seen := hrot
  determines := hdet
  arm := rfl
  triad := rfl
  length := rfl
  deformation := rfl
  tangent := rfl

/-- A commit changes nothing that is cached. -/
theorem IsCurrent.snapshot (h : IsCurrent tol t d) : IsCurrent tol t.snapshot d :=
  ⟨h.stage, h.seen, h.determines, h.arm, h.triad, h.length, h.deformation, h.tangent⟩

/-- **An update either evaluates the turned state or fails and leaves it.** -/
theorem update_cases (h0 : 0 ≤ tol.parallel) (h : HasVersors t) {nodes : Ends ν}
    (hbound : IsBound t nodes) (trial : ν → Displacement ℝ) :
    let d := t.displacement (nodes.map trial)
    let t' := t.moved (d.map Screw.rot)
    (Determines tol t' d ∧ t.update tol trial = .ok (t'.evaluated d tol) ())
      ∨ (¬ Determines tol t' d ∧ ∃ e, t.update tol trial = .fail t' e) := by
  rw [update_eq h hbound]
  exact evaluate_cases h0 (h.moved _)

/-- **An update that finds a triad succeeds.** -/
theorem update_of_determines (h0 : 0 ≤ tol.parallel) (h : HasVersors t) {nodes : Ends ν}
    (hbound : IsBound t nodes) {trial : ν → Displacement ℝ}
    (hd : t.displacement (nodes.map trial) = d)
    (hdet : Determines tol (t.moved (d.map Screw.rot)) d) :
    t.update tol trial = .ok ((t.moved (d.map Screw.rot)).evaluated d tol) () := by
  have hcases := update_cases h0 h hbound trial
  simp only [hd] at hcases
  rcases hcases with ⟨-, heq⟩ | ⟨hnot, -⟩
  · exact heq
  · exact absurd hdet hnot

/-! ## Projections -/

/-- The nodal forces of given local forces, once an update has run. -/
noncomputable def nodalForce (tol : Tolerances ℝ) (t : Transformation ν ℝ) (p : ElementVector ℝ) :
    ElementVector ℝ :=
  ElementMatrix.apply (t.tangentMap tol).transpose p

/-- The nodal stiffness of a local one at given local forces, once an update has run. -/
noncomputable def nodalStiffness (tol : Tolerances ℝ) (t : Transformation ν ℝ)
    (k : ElementMatrix ℝ) (p : ElementVector ℝ) : ElementMatrix ℝ :=
  ElementMatrix.add (t.consistentStiffness tol (t.tangentMap tol) k p)
    (tangentTerm (t.tangentMap tol) p t.deformation)

theorem IsCurrent.projections (h : IsCurrent tol t d) (k : ElementMatrix ℝ) (p : ElementVector ℝ) :
    t.pushForce p = .ok (t.nodalForce tol p) ∧ t.pushStiffness tol k p
      = .ok (t.nodalStiffness tol k p, rightAngleNotices tol t.tag t.deformation) := by
  refine ⟨?_, ?_⟩
  · rw [pushForce, h.tangent]
    rfl
  · rw [pushStiffness, h.tangent]
    rfl

end Transformation

end Corotation
