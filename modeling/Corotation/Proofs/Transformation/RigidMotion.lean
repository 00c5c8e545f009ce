import Corotation.Proofs.Element.Covariance
import Corotation.Proofs.Rotation.Exponential
import Corotation.Proofs.Transformation.Twisted
/-!
# Rigid motions of a session

From a current state the nodes are moved as a rigid body: both rotational parts
grow by one vector, and the positions turn with the rotation of its versor and
shift. The next update then succeeds, and the state it leaves is the former one
turned (`rigid_update`): the triad, the nodal rotations and the offset arms turn
with the body, and the local deformations stay. So they stay along any sequence
of rigid moves of a session (`rigid_course`).

The rotations of the moves multiply, the later one on the left. Their product
has no more to do with the sum of the vectors than that.
-/

namespace Corotation

namespace Transformation

variable [SeriesAngle] {ν : Type} {tol : Tolerances ℝ} {t t' t'' : Transformation ν ℝ}
variable {d d' : Ends (Displacement ℝ)} {position : Ends (Vec3 ℝ)} {psi c : Vec3 ℝ} {g g' : Mat3 ℝ}

/-! ## Turned states -/

/-- A state as another one turned by a rotation: what belongs to the body turns
with it, and the deformations stay. -/
structure IsTurned (g : Mat3 ℝ) (t t' : Transformation ν ℝ) : Prop where
  config : t'.config = t.config
  nodalRotation : t'.nodalRotation = t.nodalRotation.map (g * ·)
  arm : t'.arm = t.arm.map g.apply
  triad : t'.triad = t.triad.turn g
  length : t'.deformedLength = t.deformedLength
  deformation : t'.deformation = t.deformation

theorem IsTurned.refl (t : Transformation ν ℝ) : IsTurned 1 t t where
  config := rfl
  nodalRotation := Ends.ext (one_mul _).symm (one_mul _).symm
  arm := Ends.ext (Mat3.one_apply _).symm (Mat3.one_apply _).symm
  triad := Triad.ext rfl (one_mul _).symm rfl rfl
  length := rfl
  deformation := rfl

/-- Turns compose, the later one on the left. -/
theorem IsTurned.trans (h : IsTurned g t t') (h' : IsTurned g' t' t'') :
    IsTurned (g' * g) t t'' where
  config := h'.config.trans h.config
  nodalRotation := by
    rw [h'.nodalRotation, h.nodalRotation]
    exact Ends.ext (mul_assoc _ _ _).symm (mul_assoc _ _ _).symm
  arm := by
    rw [h'.arm, h.arm]
    exact Ends.ext (Mat3.mul_apply _ _ _).symm (Mat3.mul_apply _ _ _).symm
  triad := by
    rw [h'.triad, h.triad]
    exact Triad.ext rfl (mul_assoc _ _ _).symm rfl rfl
  length := h'.length.trans h.length
  deformation := h'.deformation.trans h.deformation

/-! ## One rigid move -/

/-- Displacements that differ by a rigid move: both rotational parts grow by
`psi`, and the positions turn by its rotation and shift by `c`. -/
structure IsRigidMove (position : Ends (Vec3 ℝ)) (psi c : Vec3 ℝ)
    (d d' : Ends (Displacement ℝ)) : Prop where
  rot_i : d'.i.rot = d.i.rot + psi
  rot_j : d'.j.rot = d.j.rot + psi
  lin_i : position.i + d'.i.lin = (Versor.turn psi).toMatrix.apply (position.i + d.i.lin) + c
  lin_j : position.j + d'.j.lin = (Versor.turn psi).toMatrix.apply (position.j + d.j.lin) + c

/-- The deformed chord between the displaced positions. -/
theorem deformedChord_eq (h : t.reference.IsSound tol position) (d : Ends (Displacement ℝ)) :
    t.deformedChord d = position.j + d.j.lin + t.deformedArm.j
      - (position.i + d.i.lin + t.deformedArm.i) := by
  rw [deformedChord, chordOf, h.chord]
  change position.j + t.reference.offset.j - (position.i + t.reference.offset.i)
    + (d.j.lin + t.deformedArm.j - t.reference.offset.j)
    - (d.i.lin + t.deformedArm.i - t.reference.offset.i) = _
  abel

section Move

variable (hsound : t.IsSound tol position) (h : IsCurrent tol t d)
variable (hmove : IsRigidMove position psi c d d')

include h hmove

/-- The nodes turn with the body. -/
theorem rigid_nodalRotation : (t.moved (d'.map Screw.rot)).nodalRotation
    = t.nodalRotation.map ((Versor.turn psi).toMatrix * ·) := by
  rw [moved_nodalRotation, h.seen]
  simp [Ends.map, hmove.rot_i, hmove.rot_j]

/-- The arms turn with the body. -/
theorem rigid_arm : (t.moved (d'.map Screw.rot)).deformedArm
    = t.deformedArm.map (Versor.turn psi).toMatrix.apply := by
  have harm (m n : Mat3 ℝ) (o : Vec3 ℝ) :
      ((Versor.turn psi).toMatrix * m * n).apply o
        = (Versor.turn psi).toMatrix.apply ((m * n).apply o) := by
    rw [mul_assoc, Mat3.mul_apply]
  rw [deformedArm, rigid_nodalRotation h hmove]
  exact Ends.ext (harm _ _ _) (harm _ _ _)

include hsound

/-- The chord turns with the body. -/
theorem rigid_chord : (t.moved (d'.map Screw.rot)).deformedChord d'
    = (Versor.turn psi).toMatrix.apply (t.deformedChord d) := by
  have hmoved : (t.moved (d'.map Screw.rot)).reference.IsSound tol position := hsound.reference
  rw [deformedChord_eq hmoved, deformedChord_eq hsound.reference, rigid_arm h hmove, hmove.lin_i,
    hmove.lin_j]
  simp only [Ends.map, Mat3.apply_sub, Mat3.apply_add]
  abel

/-- **The triad turns with the body**, and is determined. -/
theorem rigid_triad : Determines tol (t.moved (d'.map Screw.rot)) d'
    ∧ (t.moved (d'.map Screw.rot)).deformedTriad d'
      = (t.deformedTriad d).turn (Versor.turn psi).toMatrix := by
  have hg := Versor.isRotation_turn psi
  have haxes : (t.moved (d'.map Screw.rot)).nodalAxes
      = t.nodalAxes.map (Versor.turn psi).toMatrix.apply := by
    rw [nodalAxes, rigid_nodalRotation h hmove]
    exact Ends.ext (Mat3.mul_c2 _ _) (Mat3.mul_c2 _ _)
  rw [Determines, deformedTriad, haxes, rigid_chord hsound h hmove]
  exact ⟨h.determines.turn hg, Triad.between_turn hg⟩

/-- **The local deformations stay.** -/
theorem rigid_deformation :
    (t.moved (d'.map Screw.rot)).localDeformation d' = t.localDeformation d := by
  have hg := Versor.isRotation_turn psi
  have hrelative : (t.moved (d'.map Screw.rot)).relativeRotation
      ((t.moved (d'.map Screw.rot)).deformedTriad d')
        = t.relativeRotation (t.deformedTriad d) := by
    rw [relativeRotation, (rigid_triad hsound h hmove).2, rigid_nodalRotation h hmove]
    exact Ends.ext (hg.transpose_mul_mul _ _) (hg.transpose_mul_mul _ _)
  rw [localDeformation, hrelative, rigid_chord hsound h hmove, hg.norm_apply]
  rfl

/-- **After a rigid move the update succeeds with the turned state.** -/
theorem rigid_update (h0 : 0 ≤ tol.parallel) {nodes : Ends ν} (hbound : IsBound t nodes)
    {trial : ν → Displacement ℝ} (htrial : t.displacement (nodes.map trial) = d') :
    ∃ t', t.update tol trial = .ok t' () ∧ IsCurrent tol t' d'
      ∧ IsTurned (Versor.turn psi).toMatrix t t' := by
  obtain ⟨hdet, htriad⟩ := rigid_triad hsound h hmove
  refine ⟨_, update_of_determines h0 hsound.versors hbound htrial hdet,
    isCurrent_evaluated rfl hdet,
    rfl, rigid_nodalRotation h hmove, ?_, ?_, ?_, ?_⟩
  · rw [h.arm]
    exact rigid_arm h hmove
  · rw [h.triad]
    exact htriad
  · rw [h.length, ← (Versor.isRotation_turn psi).norm_apply, ← rigid_chord hsound h hmove]
    rfl
  · rw [h.deformation]
    exact rigid_deformation hsound h hmove

end Move

end Transformation

/-! ## Rigid moves of a session -/

/-- A rigid move: the growth of the rotational parts of both nodes, the shift of
their positions, and what the nodes report after it. -/
structure RigidMove (ν : Type) where
  /-- The growth of the rotational parts. -/
  spin : Vec3 ℝ
  /-- The shift of the positions. -/
  shift : Vec3 ℝ
  /-- What the nodes report after it. -/
  trial : ν → Displacement ℝ

namespace RigidMove

variable [SeriesAngle] {ν : Type} {tol : Tolerances ℝ} {s : Session ν ℝ} {nodes : Ends ν}

/-- The rotation that a composition with the spin applies. -/
noncomputable def rotation (m : RigidMove ν) : Mat3 ℝ := (Versor.turn m.spin).toMatrix

/-- The update that follows the move. -/
def call (m : RigidMove ν) : Call ν ℝ := .update m.trial

/-- What the nodes report is what they reported, moved rigidly: the spin is added
to the rotational parts, and the positions that the translations lead to, less
what was captured, turn with its rotation and shift. -/
structure Applies (m : RigidMove ν) (s : Session ν ℝ) (nodes : Ends ν) : Prop where
  bound : s.transformation.nodes = some nodes
  rot_i : (m.trial nodes.i).rot = s.reported.i.rot + m.spin
  rot_j : (m.trial nodes.j).rot = s.reported.j.rot + m.spin
  lin_i : s.position.i + (s.transformation.displacement (nodes.map m.trial)).i.lin
    = m.rotation.apply (s.position.i + s.displacement.i.lin) + m.shift
  lin_j : s.position.j + (s.transformation.displacement (nodes.map m.trial)).j.lin
    = m.rotation.apply (s.position.j + s.displacement.j.lin) + m.shift

/-- What was captured cancels from the growth of the rotational parts. -/
theorem Applies.isRigidMove {m : RigidMove ν} (h : m.Applies s nodes) :
    Transformation.IsRigidMove s.position m.spin m.shift s.displacement
      (s.transformation.displacement (nodes.map m.trial)) where
  rot_i := by
    change (m.trial nodes.i).rot - s.transformation.initial.i.rot
      = s.reported.i.rot - s.transformation.initial.i.rot + m.spin
    rw [h.rot_i]
    abel
  rot_j := by
    change (m.trial nodes.j).rot - s.transformation.initial.j.rot
      = s.reported.j.rot - s.transformation.initial.j.rot + m.spin
    rw [h.rot_j]
    abel
  lin_i := h.lin_i
  lin_j := h.lin_j

/-- The rotation of a sequence of moves, the first one on the right. -/
noncomputable def total : List (RigidMove ν) → Mat3 ℝ
  | [] => 1
  | m :: moves => total moves * m.rotation

end RigidMove

namespace Session

open RigidMove (total)

variable [SeriesAngle] {ν : Type} {tol : Tolerances ℝ} {s : Session ν ℝ} {nodes : Ends ν}
variable {m : RigidMove ν} {moves : List (RigidMove ν)}

/-- The session after it followed a sequence of moves. -/
noncomputable def course (tol : Tolerances ℝ) (s : Session ν ℝ) (moves : List (RigidMove ν)) :
    Session ν ℝ := (moves.map RigidMove.call).foldl (next tol) s

/-- Each move applies to the session that followed the ones before it. -/
def IsRigidCourse (tol : Tolerances ℝ) (nodes : Ends ν) :
    Session ν ℝ → List (RigidMove ν) → Prop
  | _, [] => True
  | s, m :: moves => m.Applies s nodes ∧ IsRigidCourse tol nodes (s.next tol m.call) moves

/-- **One rigid move.** The update succeeds, and the session is current with
the turned state. -/
theorem rigid_step (h0 : 0 ≤ tol.parallel) (h : s.Consistent tol)
    (hcurrent : s.transformation.stage = .current) (hmove : m.Applies s nodes) :
    ∃ t', s.transformation.update tol m.trial = .ok t' () ∧ (s.next tol m.call).transformation = t'
      ∧ t'.stage = .current ∧ t'.nodes = some nodes
      ∧ t'.IsCurrent tol (s.transformation.displacement (nodes.map m.trial))
      ∧ Transformation.IsTurned m.rotation s.transformation t' := by
  obtain ⟨hcur, hsound, hstage⟩ := h.of_current hcurrent
  have hbound : Transformation.IsBound s.transformation nodes := ⟨hstage, hmove.bound⟩
  obtain ⟨t', hupdate, hcur', hturned⟩ :=
    Transformation.rigid_update hsound hcur hmove.isRigidMove h0 hbound rfl
  have hnext : (s.next tol m.call).transformation = t' := congrArg Outcome.state hupdate
  have hnodes := (Transformation.update_sound h0 hsound hbound m.trial).2.1.nodes
  rw [hupdate] at hnodes
  exact ⟨t', hupdate, hnext, hcur'.stage, hnodes, hcur', hturned⟩

/-- **A sequence of rigid moves.** Every update on the way succeeds, and the
session is current with the state turned by all the moves. -/
theorem course_isTurned (h0 : 0 ≤ tol.parallel) (h : s.Consistent tol)
    (hcurrent : s.transformation.stage = .current) (hmoves : IsRigidCourse tol nodes s moves) :
    (∀ before m after, moves = before ++ m :: after →
        ((s.course tol before).transformation.update tol m.trial).result = .ok ())
      ∧ (s.course tol moves).transformation.stage = .current
      ∧ Transformation.IsTurned (total moves) s.transformation
        (s.course tol moves).transformation := by
  induction moves generalizing s with
  | nil =>
    refine ⟨fun before m after heq => ?_, hcurrent, .refl _⟩
    exact absurd heq.symm (List.append_ne_nil_of_right_ne_nil before (List.cons_ne_nil m after))
  | cons m moves ih =>
    obtain ⟨hmove, hrest⟩ := hmoves
    obtain ⟨t', hupdate, hnext, hstage, -, -, hturned⟩ := rigid_step h0 h hcurrent hmove
    obtain ⟨haccept, hend, hturns⟩ :=
      ih (next_consistent h0 h m.call) (by rw [hnext, hstage]) hrest
    refine ⟨fun before m' after heq => ?_, hend, (hnext ▸ hturned).trans hturns⟩
    cases before with
    | nil =>
      obtain ⟨rfl, -⟩ := List.cons.inj heq
      exact congrArg Outcome.result hupdate
    | cons b before =>
      obtain ⟨rfl, heq'⟩ := List.cons.inj heq
      exact haccept before m' after heq'

/-! ### Moving the nodes -/

/-- The displacements of the nodes after a rigid move of what they reported. -/
noncomputable def carried (s : Session ν ℝ) (spin shift : Vec3 ℝ) : Ends (Displacement ℝ) :=
  let place (x u : Vec3 ℝ) : Vec3 ℝ := (Versor.turn spin).toMatrix.apply (x + u) + shift - x
  s.transformation.initial
    + ⟨⟨place s.position.i s.displacement.i.lin, s.displacement.i.rot + spin⟩,
       ⟨place s.position.j s.displacement.j.lin, s.displacement.j.rot + spin⟩⟩

/-- The rigid move of two nodes by a spin and a shift. -/
noncomputable def rigidMove [DecidableEq ν] (s : Session ν ℝ) (nodes : Ends ν)
    (spin shift : Vec3 ℝ) : RigidMove ν where
  spin := spin
  shift := shift
  trial k := if k = nodes.j then (s.carried spin shift).j else (s.carried spin shift).i

/-- **A session can be moved by any spin and shift**, if its nodes are two. -/
theorem rigidMove_applies [DecidableEq ν] (hnodes : s.transformation.nodes = some nodes)
    (hne : nodes.i ≠ nodes.j) (spin shift : Vec3 ℝ) :
    (s.rigidMove nodes spin shift).Applies s nodes := by
  have hi : (s.rigidMove nodes spin shift).trial nodes.i = (s.carried spin shift).i := if_neg hne
  have hj : (s.rigidMove nodes spin shift).trial nodes.j = (s.carried spin shift).j := if_pos rfl
  have hrot (o r : Vec3 ℝ) : o + (r - o + spin) = r + spin := by abel
  have hlin (x y o : Vec3 ℝ) : x + (o + (y + shift - x) - o) = y + shift := by abel
  refine ⟨hnodes, ?_, ?_, ?_, ?_⟩
  · rw [hi]
    exact hrot s.transformation.initial.i.rot _
  · rw [hj]
    exact hrot s.transformation.initial.j.rot _
  · change s.position.i + (((s.rigidMove nodes spin shift).trial nodes.i).lin
      - s.transformation.initial.i.lin) = _
    rw [hi]
    exact hlin _ _ _
  · change s.position.j + (((s.rigidMove nodes spin shift).trial nodes.j).lin
      - s.transformation.initial.j.lin) = _
    rw [hj]
    exact hlin _ _ _

/-! ### Rigid moves after any session -/

/-- **Rigid moves deform nothing.** From any current state of any session,
along any sequence of rigid moves: every update succeeds, the session is current
after it, the local deformations and the deformed length are what they were, and
the triad and the rotations of both nodes are turned by the rotations of all the
moves. With exact rotations each of these is the exponential of its spin; their
product is not in general the rotation of the sum of the spins. -/
theorem rigid_course (h0 : 0 ≤ tol.parallel) (config : Configuration ℝ)
    (calls : List (Call ν ℝ)) {nodes : Ends ν} {moves : List (RigidMove ν)}
    (hcurrent : (run tol config calls).transformation.stage = .current)
    (hmoves : IsRigidCourse tol nodes (run tol config calls) moves) :
    let s := run tol config calls
    let t := s.transformation
    let t' := (s.course tol moves).transformation
    (∀ before m after, moves = before ++ m :: after →
        ((s.course tol before).transformation.update tol m.trial).result = .ok ())
      ∧ t'.stage = .current ∧ t'.deformation = t.deformation
      ∧ t'.deformedLength = t.deformedLength
      ∧ t'.triad.axes = total moves * t.triad.axes
      ∧ t'.nodalRotation = t.nodalRotation.map (total moves * ·)
      ∧ (SeriesAngle.angle = 0 →
        ∀ m ∈ moves, m.rotation.entries = NormedSpace.exp (Mat3.skew m.spin).entries)
      ∧ ∃ m m' : RigidMove ν, total [m, m'] ≠ (Versor.turn (m.spin + m'.spin)).toMatrix := by
  intro s t t'
  obtain ⟨haccept, hstage, hturned⟩ :=
    course_isTurned h0 (run_consistent h0 config calls) hcurrent hmoves
  refine ⟨haccept, hstage, hturned.deformation, hturned.length, congrArg Triad.axes hturned.triad,
    hturned.nodalRotation, fun hexact m _ => Versor.turn_eq_exp hexact m.spin, ?_⟩
  obtain ⟨u, v, hne⟩ := Versor.exists_turn_mul_ne
  refine ⟨⟨u, 0, fun _ => 0⟩, ⟨v, 0, fun _ => 0⟩, ?_⟩
  rwa [total, total, total, one_mul]

omit [SeriesAngle] in
/-- The twisted element, turned about two axes one after the other. -/
theorem rigid_course_twisted :
    letI : SeriesAngle := .exact
    let s := twistedSession .standard
    let m := s.rigidMove ⟨false, true⟩ ⟨0, 0, 1⟩ ⟨1, 0, 0⟩
    let m' := (s.next .standard m.call).rigidMove ⟨false, true⟩ ⟨1, 0, 0⟩ 0
    let t' := (s.course .standard [m, m']).transformation
    t'.stage = .current ∧ t'.deformation = s.transformation.deformation
      ∧ t'.triad.axes = total [m, m'] * s.transformation.triad.axes := by
  let _ : SeriesAngle := .exact
  intro s m m' t'
  have h0 := Tolerances.standard_admissible_exact.parallel_nonneg
  obtain ⟨hstage, hnodes, -, -⟩ := twistedSession_standard
  have hmove : m.Applies s ⟨false, true⟩ := rigidMove_applies hnodes Bool.false_ne_true _ _
  obtain ⟨t₁, -, hnext, -, hnodes', -⟩ := rigid_step h0 (run_consistent h0 _ _) hstage hmove
  have hmove' : m'.Applies (s.next .standard m.call) ⟨false, true⟩ :=
    rigidMove_applies (hnext ▸ hnodes') Bool.false_ne_true _ _
  have hmoves : IsRigidCourse .standard ⟨false, true⟩ s [m, m'] := ⟨hmove, hmove', trivial⟩
  obtain ⟨-, hend, hdeformation, -, htriad, -⟩ := rigid_course h0 straight _ hstage hmoves
  exact ⟨hend, hdeformation, htriad⟩

end Session

end Corotation
