import Corotation.Proofs.Transformation.Session
/-!
# The undeformed configuration

With both nodes at the reference orientation and no displacement, the deformed
chord is the reference chord and its triad has the reference axes. The nodes do
not turn relative to it, so nothing is deformed (`localDeformation_eq_zero`).
In particular an update at the displacements that an attachment found is
accepted, and finds no deformation (`undeformed_session`).
-/

namespace Corotation

namespace Transformation

variable [SeriesAngle] {ν : Type} {tol : Tolerances ℝ} {t : Transformation ν ℝ}
variable {position : Ends (Vec3 ℝ)} {r : Reference ℝ}

/-- A mean y-axis along the second reference axis has the third one for the
normal. -/
theorem normal_of_mean (h : r.IsSound tol position) {nodal : Ends (Vec3 ℝ)} {k : ℝ}
    (hmean : Triad.meanAxis nodal = k • r.axes.c2) :
    Triad.normal nodal r.chord = k • r.axes.c3 := by
  rw [Triad.normal, hmean, ← h.first_axis, Vec3.cross_smul, h.isRotation.c1_cross_c2]

/-- **A triad whose mean y-axis is along the second reference axis** has the
reference axes. -/
theorem triad_axes_of_mean (h : r.IsSound tol position) {nodal : Ends (Vec3 ℝ)} {k : ℝ}
    (hk : 0 < k) (hmean : Triad.meanAxis nodal = k • r.axes.c2) :
    (Triad.between nodal r.chord).axes = r.axes := by
  have hm := h.isRotation
  have hthird : Triad.direction (Triad.normal nodal r.chord) = r.axes.c3 := by
    rw [normal_of_mean h hmean, Triad.direction, Vec3.norm_smul, hm.norm_c3, mul_one,
      abs_of_pos hk, inv_smul_smul₀ hk.ne']
  change Mat3.ofColumns _ ((Triad.direction (Triad.normal nodal r.chord)).cross _)
    (Triad.direction (Triad.normal nodal r.chord)) = _
  rw [hthird, ← h.first_axis, hm.c3_cross_c1]
  rfl

/-- The kinematics without displacements, both nodes having the reference
orientation. -/
theorem undeformed_chord (h : t.reference.IsSound tol position)
    (hrot : t.nodalRotation = .both t.reference.axes) :
    t.deformedArm = t.reference.offset ∧ t.deformedChord 0 = t.reference.chord := by
  have harm : t.deformedArm = t.reference.offset := by
    have hback (o : Vec3 ℝ) : (t.reference.axes * t.reference.axes.transpose).apply o = o := by
      rw [h.isRotation.mul_transpose, Mat3.one_apply]
    rw [deformedArm, hrot]
    exact Ends.ext (hback _) (hback _)
  refine ⟨harm, ?_⟩
  rw [deformedChord, harm]
  simp [chordOf]

/-- **Without displacements a triad is determined**, and it has the reference
axes. -/
theorem undeformed_triad (h : t.reference.IsSound tol position)
    (hrot : t.nodalRotation = .both t.reference.axes) :
    Determines tol t 0 ∧ (t.deformedTriad 0).axes = t.reference.axes := by
  have haxes : t.nodalAxes = .both t.reference.axes.c2 := by
    rw [nodalAxes, hrot]
    rfl
  rw [Determines, deformedTriad, haxes, (undeformed_chord h hrot).2]
  refine ⟨h.determined, triad_axes_of_mean h one_pos ?_⟩
  rw [Triad.meanAxis_both, one_smul]

/-- **Without displacements nothing is deformed.** -/
theorem localDeformation_eq_zero (h : t.reference.IsSound tol position)
    (hrot : t.nodalRotation = .both t.reference.axes) : t.localDeformation 0 = 0 := by
  have hrelative : t.relativeRotation (t.deformedTriad 0) = .both 1 := by
    rw [relativeRotation, (undeformed_triad h hrot).2, hrot]
    exact Ends.ext h.isRotation.transpose_mul h.isRotation.transpose_mul
  rw [localDeformation, hrelative, (undeformed_chord h hrot).2, h.length, sub_self]
  refine Slots.ext_slots rfl Versor.logarithm_one rfl Versor.logarithm_one

/-- **An update without displacements** from the reference orientation is
accepted, and turns no node. -/
theorem update_undeformed_eq (h : t.IsSound tol position) {nodes : Ends ν}
    (hbound : IsBound t nodes) (hrot : t.nodalRotation = .both t.reference.axes)
    (hseen : t.seen = .both 0) {trial : ν → Displacement ℝ}
    (hzero : t.displacement (nodes.map trial) = 0) :
    (t.moved (.both 0)).nodalRotation = .both t.reference.axes
      ∧ t.update tol trial = .ok ((t.moved (.both 0)).evaluated 0 tol) () := by
  have hmoved : (t.moved (.both 0)).nodalRotation = .both t.reference.axes := by
    rw [moved_nodalRotation, hrot, hseen]
    simp [Ends.both, Versor.turn_zero, Versor.toMatrix_identity]
  have hr : (t.moved (.both 0)).reference.IsSound tol position := h.reference
  obtain ⟨hdet, haxes⟩ := undeformed_triad hr hmoved
  refine ⟨hmoved, ?_⟩
  rw [update_eq h.versors hbound, hzero]
  exact evaluate_of_isRotation (h.versors.moved _) hdet (haxes ▸ hr.isRotation)

/-- It finds no deformation. -/
theorem update_undeformed (h : t.IsSound tol position) {nodes : Ends ν}
    (hbound : IsBound t nodes) (hrot : t.nodalRotation = .both t.reference.axes)
    (hseen : t.seen = .both 0) {trial : ν → Displacement ℝ}
    (hzero : t.displacement (nodes.map trial) = 0) :
    ∃ t', t.update tol trial = .ok t' () ∧ t'.stage = .current ∧ t'.nodes = some nodes
      ∧ t'.deformation = 0 := by
  obtain ⟨hmoved, heq⟩ := update_undeformed_eq h hbound hrot hseen hzero
  have hr : (t.moved (.both 0)).reference.IsSound tol position := h.reference
  exact ⟨_, heq, rfl, hbound.nodes, localDeformation_eq_zero hr hmoved⟩

end Transformation

namespace Session

variable [SeriesAngle] {ν : Type} {tol : Tolerances ℝ}

/-- What an attachment finds is captured. -/
theorem attached_initial (config : Configuration ℝ) (nodes : Ends ν)
    (trial : Ends (Displacement ℝ)) (r : Reference ℝ) :
    ((Transformation.ofConfiguration config).attached nodes trial r).initial = trial := by
  change ((Transformation.ofConfiguration config : Transformation ν ℝ).lookForDisplacements
    trial).1.initial = trial
  simp only [Transformation.lookForDisplacements, Transformation.ofConfiguration]
  split
  · rename_i hzero
    simp only [Displacement.IsZero, Vec3.isZero_iff] at hzero
    obtain ⟨⟨hil, hir⟩, hjl, hjr⟩ := hzero
    refine Slots.ext_slots ?_ ?_ ?_ ?_ <;> simp [Ends.both, hil, hir, hjl, hjr]
  · rfl

/-- A session that binds two nodes and follows them once. -/
theorem attached_session (h0 : 0 ≤ tol.parallel) {config : Configuration ℝ} {i j : ν}
    {ni nj : Node ℝ} {r : Reference ℝ}
    (href : Transformation.referenceOf tol config ⟨ni.position, nj.position⟩ = .ok r)
    (trial : ν → Displacement ℝ) :
    let s := run tol config [.attach [some (i, ni), some (j, nj)], .update trial]
    let t : Transformation ν ℝ :=
      (Transformation.ofConfiguration config).attached ⟨i, j⟩ ⟨ni.trial, nj.trial⟩ r
    s.transformation = (t.update tol trial).state ∧ s.reported = ⟨trial i, trial j⟩ := by
  obtain ⟨-, hstate⟩ := Transformation.attach_eq
    (t := (Transformation.ofConfiguration config : Transformation ν ℝ)) (i := i) (j := j) h0 href
  constructor
  · simp only [run, List.foldl, next, Call.perform, start, hstate]
  · simp only [run, List.foldl, next, Call.perform, start, hstate]
    rfl

/-- **A session that starts and stays at what its nodes first report** is
current and not deformed. -/
theorem undeformed_session (h0 : 0 ≤ tol.parallel) {config : Configuration ℝ} {i j : ν}
    {ni nj : Node ℝ} {r : Reference ℝ}
    (href : Transformation.referenceOf tol config ⟨ni.position, nj.position⟩ = .ok r)
    {trial : ν → Displacement ℝ} (hi : trial i = ni.trial) (hj : trial j = nj.trial) :
    let s := run tol config [.attach [some (i, ni), some (j, nj)], .update trial]
    s.transformation.stage = .current ∧ s.transformation.nodes = some ⟨i, j⟩
      ∧ s.transformation.deformation = 0 := by
  intro s
  have hr := Transformation.referenceOf_eq_ok h0 href
  set t : Transformation ν ℝ :=
    (Transformation.ofConfiguration config).attached ⟨i, j⟩ ⟨ni.trial, nj.trial⟩ r
  have hzero : t.displacement ((⟨i, j⟩ : Ends ν).map trial) = 0 := by
    change (⟨trial i, trial j⟩ : Ends (Displacement ℝ)) - t.initial = 0
    rw [attached_initial, hi, hj, sub_self]
  obtain ⟨t', hupdate, hstage, hnodes, hdeformation⟩ :=
    Transformation.update_undeformed (Transformation.attached_isSound _ _ _ hr)
      (Transformation.attached_isBound _ _ _ _) (Transformation.attached_nodalRotation _ _ _ hr) rfl
      hzero
  have htransformation : s.transformation = t' :=
    (attached_session h0 href trial).1.trans (congrArg Outcome.state hupdate)
  rw [htransformation]
  exact ⟨hstage, hnodes, hdeformation⟩

end Session

end Corotation
