import Corotation.Proofs.Rotation.Exponential
import Corotation.Proofs.Transformation.Undeformed
/-!
# A twisted element

The nodes of an element without offsets turn by opposite angles about its axis,
by less than a right angle. The mean of their y-axes keeps its direction, so the
triad has the reference axes, and each node is left with its own angle about the
first one: the element is twisted and not deformed otherwise
(`update_twisted`). So there are current states with local rotations of any such
angle; `twistedSession` is in one.
-/

namespace Corotation

namespace Transformation

variable [SeriesAngle] {ν : Type} {tol : Tolerances ℝ} {t : Transformation ν ℝ}
variable {position : Ends (Vec3 ℝ)} {a : ℝ}

/-- Opposite turns of the nodes about the first axis. -/
noncomputable def twist (m : Mat3 ℝ) (a : ℝ) : Ends (Displacement ℝ) :=
  ⟨⟨0, m.apply ⟨a, 0, 0⟩⟩, ⟨0, m.apply ⟨-a, 0, 0⟩⟩⟩

/-- The local deformations of a twisted element. -/
noncomputable def twisted (a : ℝ) : ElementVector ℝ := ⟨⟨0, ⟨a, 0, 0⟩⟩, ⟨0, ⟨-a, 0, 0⟩⟩⟩

section Kinematics

/-- The chord of an element without offsets stays with its nodes. -/
theorem twisted_chord (hoffset : t.reference.offset = .both 0) :
    t.deformedChord (twist t.reference.axes a) = t.reference.chord := by
  rw [deformedChord, deformedArm_of_offset hoffset]
  simp [chordOf, twist, hoffset, Ends.both]

variable (h : t.reference.IsSound tol position) (hoffset : t.reference.offset = .both 0)
variable (hrot : t.nodalRotation = (twist t.reference.axes a).map
  fun d => (Versor.turn d.rot).toMatrix * t.reference.axes)

include h hrot

/-- The mean of the nodal y-axes keeps its direction. -/
theorem twisted_meanAxis (h0 : 0 ≤ SeriesAngle.angle) (ha : SeriesAngle.angle < a) :
    Triad.meanAxis t.nodalAxes = Real.cos a • t.reference.axes.c2 := by
  have hm := h.isRotation
  have hfirst (b : ℝ) : t.reference.axes.apply ⟨b, 0, 0⟩ = b • t.reference.axes.c1 := by
    rw [Mat3.apply_columns]
    simp
  have hi : t.nodalAxes.i
      = Real.cos a • t.reference.axes.c2 + Real.sin a • t.reference.axes.c3 := by
    rw [nodalAxes, hrot]
    change ((Versor.turn (t.reference.axes.apply ⟨a, 0, 0⟩)).toMatrix * t.reference.axes).c2 = _
    rw [Mat3.mul_c2, hfirst, Versor.turn_smul_apply h0 ha hm.c1_dot_c1 hm.c1_dot_c2,
      hm.c1_cross_c2]
  have hj : t.nodalAxes.j
      = Real.cos a • t.reference.axes.c2 - Real.sin a • t.reference.axes.c3 := by
    have hback : t.reference.axes.apply ⟨-a, 0, 0⟩ = a • -t.reference.axes.c1 := by
      rw [hfirst, neg_smul, smul_neg]
    rw [nodalAxes, hrot]
    change ((Versor.turn (t.reference.axes.apply ⟨-a, 0, 0⟩)).toMatrix * t.reference.axes).c2 = _
    rw [Mat3.mul_c2, hback, Versor.turn_smul_apply h0 ha (by simp [hm.c1_dot_c1])
      (by simp [hm.c1_dot_c2]), Vec3.neg_cross, hm.c1_cross_c2, smul_neg, sub_eq_add_neg]
  rw [Triad.meanAxis_eq, hi, hj]
  module

include hoffset

/-- **The triad of a twisted element** is determined, and has the reference
axes. -/
theorem twisted_triad (h0 : 0 ≤ SeriesAngle.angle) (ha : SeriesAngle.angle < a)
    (hp : 0 ≤ tol.parallel) (hcos : tol.parallel < Real.cos a) :
    Determines tol t (twist t.reference.axes a)
      ∧ (t.deformedTriad (twist t.reference.axes a)).axes = t.reference.axes := by
  have hmean := twisted_meanAxis h hrot h0 ha
  have hpos : 0 < Real.cos a := hp.trans_lt hcos
  rw [Determines, deformedTriad, twisted_chord hoffset]
  refine ⟨⟨h.determined.length_pos, ?_⟩, triad_axes_of_mean h hpos hmean⟩
  rwa [normal_of_mean h hmean, Vec3.norm_smul, h.isRotation.norm_c3, mul_one, abs_of_pos hpos]

/-- **A twisted element is not deformed otherwise.** -/
theorem localDeformation_twisted (h0 : 0 ≤ SeriesAngle.angle) (ha : SeriesAngle.angle < a)
    (hpi : a < Real.pi) (hp : 0 ≤ tol.parallel) (hcos : tol.parallel < Real.cos a) :
    t.localDeformation (twist t.reference.axes a) = twisted a := by
  have hm := h.isRotation
  have hlocal (v : Vec3 ℝ) : t.reference.axes.transpose
      * ((Versor.turn (t.reference.axes.apply v)).toMatrix * t.reference.axes)
        = (Versor.turn v).toMatrix := by
    rw [Versor.toMatrix_turn_apply hm, mul_assoc, hm.transpose_mul, mul_one, ← mul_assoc,
      hm.transpose_mul, one_mul]
  have hrelative : t.relativeRotation (t.deformedTriad (twist t.reference.axes a))
      = ⟨(Versor.turn ⟨a, 0, 0⟩).toMatrix, (Versor.turn ⟨-a, 0, 0⟩).toMatrix⟩ := by
    rw [relativeRotation, (twisted_triad h hoffset hrot h0 ha hp hcos).2, hrot]
    exact Ends.ext (hlocal _) (hlocal _)
  have hnorm {v : Vec3 ℝ} (hv : v.dot v = a * a) : v.norm = a := by
    rw [Vec3.norm_eq, hv, Real.sqrt_mul_self (h0.trans ha.le)]
  have hlog {v : Vec3 ℝ} (hv : v.dot v = a * a) :
      Versor.logarithm (Versor.turn v).toMatrix = v :=
    Versor.logarithm_turn h0 ((hnorm hv).symm ▸ ha) ((hnorm hv).symm ▸ hpi)
  rw [localDeformation, hrelative, twisted_chord hoffset, h.length, sub_self]
  exact Slots.ext_slots rfl (hlog (by simp [Vec3.dot_eq])) rfl (hlog (by simp [Vec3.dot_eq]))

end Kinematics

/-- **An update that twists an element** from the reference orientation is
accepted, and finds the twist. -/
theorem update_twisted (h : t.IsSound tol position) {nodes : Ends ν} (hbound : IsBound t nodes)
    (hoffset : t.reference.offset = .both 0)
    (hrot : t.nodalRotation = .both t.reference.axes) (hseen : t.seen = .both 0)
    (h0 : 0 ≤ SeriesAngle.angle) (ha : SeriesAngle.angle < a) (hpi : a < Real.pi)
    (hp : 0 ≤ tol.parallel) (hcos : tol.parallel < Real.cos a) {trial : ν → Displacement ℝ}
    (htwist : t.displacement (nodes.map trial) = twist t.reference.axes a) :
    ∃ t', t.update tol trial = .ok t' () ∧ t'.stage = .current ∧ t'.nodes = some nodes
      ∧ t'.deformation = twisted a := by
  set d := twist t.reference.axes a with hd
  have hmoved : (t.moved (d.map Screw.rot)).nodalRotation
      = d.map fun d => (Versor.turn d.rot).toMatrix * t.reference.axes := by
    rw [moved_nodalRotation, hrot, hseen]
    simp [Ends.both, Ends.map]
  have hr : (t.moved (d.map Screw.rot)).reference.IsSound tol position := h.reference
  exact ⟨_, update_of_determines hp h.versors hbound htwist
    (twisted_triad hr hoffset hmoved h0 ha hp hcos).1, rfl, hbound.nodes,
    localDeformation_twisted hr hoffset hmoved h0 ha hpi hp hcos⟩

end Transformation

namespace Session

open Transformation (twisted)

variable [SeriesAngle] {tol : Tolerances ℝ}

/-! ## A straight element -/

/-- An element without offsets, with the third axis for its reference
vector. -/
def straight : Configuration ℝ := ⟨.null, ⟨0, 0, 1⟩, none, .none⟩

/-- What its two nodes report. -/
def pairTrial (d : Ends (Displacement ℝ)) (node : Bool) : Displacement ℝ :=
  if node then d.j else d.i

/-- The straight element between nodes a unit apart along the first axis: the
session after they were bound and turned by opposite unit angles. -/
noncomputable def twistedSession (tol : Tolerances ℝ) : Session Bool ℝ :=
  run tol straight
    [.attach [some (false, .ofPosition .null 0), some (true, .ofPosition .null ⟨1, 0, 0⟩)],
      .update (pairTrial (twisted 1))]

/-- The straight element has a reference geometry, with the first axis along the
chord. -/
theorem straight_reference (hp : 0 ≤ tol.parallel) (h1 : tol.parallel < 1) :
    ∃ r, Transformation.referenceOf tol straight ⟨0, ⟨1, 0, 0⟩⟩ = .ok r ∧ r.offset = .both 0
      ∧ r.axes.c1 = ⟨1, 0, 0⟩ := by
  have hnorm {a : Vec3 ℝ} (ha : a.dot a = 1) : a.norm = 1 := by
    rw [Vec3.norm_eq, ha, Real.sqrt_one]
  have hchord : ((⟨1, 0, 0⟩ : Vec3 ℝ) - 0).norm = 1 := hnorm (by simp [Vec3.dot_eq])
  have hvecxz : (⟨0, 0, 1⟩ : Vec3 ℝ).norm = 1 := hnorm (by simp [Vec3.dot_eq])
  have hdirection : Triad.direction ((⟨1, 0, 0⟩ : Vec3 ℝ) - 0) = ⟨1, 0, 0⟩ := by
    rw [Triad.direction, hchord, inv_one, one_smul, sub_zero]
  have hlimit : tol.parallel * max (⟨0, 0, 1⟩ : Vec3 ℝ).norm 1
      < ((⟨0, 0, 1⟩ : Vec3 ℝ).cross (Triad.direction (⟨1, 0, 0⟩ - 0))).norm := by
    have hacross : ((⟨0, 0, 1⟩ : Vec3 ℝ).cross ⟨1, 0, 0⟩).norm = 1 :=
      hnorm (by simp [Vec3.dot_eq])
    rwa [hdirection, hacross, hvecxz, max_self, mul_one]
  have hexists : ∃ r, Transformation.referenceOf tol straight ⟨0, ⟨1, 0, 0⟩⟩ = .ok r
      ∧ r.offset = .both 0 :=
    Transformation.exists_referenceOf rfl (by rw [hchord]; exact one_pos) hlimit
  obtain ⟨r, hr, hoffset⟩ := hexists
  have hsound := Transformation.referenceOf_eq_ok hp hr
  refine ⟨r, hr, hoffset, ?_⟩
  rw [hsound.first_axis, hsound.chord, hoffset]
  change Triad.direction ((⟨1, 0, 0⟩ : Vec3 ℝ) + 0 - (0 + 0)) = _
  rw [add_zero, add_zero, hdirection]

/-- **The twisted element is current** with its twist for local rotations. -/
theorem twistedSession_current (h0 : 0 ≤ SeriesAngle.angle) (h1 : SeriesAngle.angle < 1)
    (hp : 0 ≤ tol.parallel) (hcos : tol.parallel < Real.cos 1) :
    let s := twistedSession tol
    s.transformation.stage = .current ∧ s.transformation.nodes = some ⟨false, true⟩
      ∧ s.reported = twisted 1 ∧ s.transformation.deformation = twisted 1 := by
  intro s
  obtain ⟨r, href, hoffset, haxis⟩ := straight_reference hp (hcos.trans_le (Real.cos_le_one 1))
  have hr := Transformation.referenceOf_eq_ok hp href
  set t : Transformation Bool ℝ :=
    (Transformation.ofConfiguration straight).attached ⟨false, true⟩ (.both 0) r
  have haxes (b : ℝ) : r.axes.apply ⟨b, 0, 0⟩ = ⟨b, 0, 0⟩ := by
    rw [Mat3.apply_columns, haxis]
    ext <;> simp
  have htwist : t.displacement ((⟨false, true⟩ : Ends Bool).map (pairTrial (twisted 1)))
      = Transformation.twist r.axes 1 := by
    change (twisted 1 : Ends (Displacement ℝ)) - t.initial = _
    rw [attached_initial, Transformation.twist, haxes, haxes]
    exact sub_zero _
  obtain ⟨t', hupdate, hstage, hnodes, hdeformation⟩ :=
    Transformation.update_twisted (Transformation.attached_isSound _ _ _ hr)
      (Transformation.attached_isBound _ _ _ _) hoffset
      (Transformation.attached_nodalRotation _ _ _ hr) rfl h0 h1
      (by linarith [Real.two_le_pi]) hp hcos htwist
  have hsession : s.transformation = (t.update tol (pairTrial (twisted 1))).state
      ∧ s.reported = twisted 1 := attached_session hp href (pairTrial (twisted 1))
  obtain ⟨hstate, hreported⟩ := hsession
  have htransformation : s.transformation = t' := hstate.trans (congrArg Outcome.state hupdate)
  rw [htransformation]
  exact ⟨hstage, hnodes, hreported, hdeformation⟩

/-- The standard tolerances cover the twist, with what is around it. -/
theorem standard_coversAround {v : Vec3 ℝ} (hv : v.dot v = 1) :
    Tolerances.standard.CoversAround v := by
  have h1 : v.norm = 1 := by rw [Vec3.norm_eq, hv, Real.sqrt_one]
  refine .inr ⟨?_, by linarith [Real.two_le_pi]⟩
  change 1 / 20 < v.norm
  rw [h1]
  norm_num

omit [SeriesAngle] in
/-- So it is with exact rotations, under the standard tolerances. -/
theorem twistedSession_standard :
    letI : SeriesAngle := .exact
    let s := twistedSession .standard
    s.transformation.stage = .current ∧ s.transformation.nodes = some ⟨false, true⟩
      ∧ s.reported = twisted 1
      ∧ Tolerances.standard.CoversAround s.transformation.deformation.i.rot
      ∧ Tolerances.standard.CoversAround s.transformation.deformation.j.rot := by
  let _ : SeriesAngle := .exact
  intro s
  obtain ⟨hstage, hnodes, hreported, hdeformation⟩ := twistedSession_current le_rfl one_pos
    Tolerances.standard_admissible_exact.parallel_nonneg Tolerances.standard_parallel_lt_cos
  rw [hdeformation]
  exact ⟨hstage, hnodes, hreported, standard_coversAround (by simp [twisted, Vec3.dot_eq]),
    standard_coversAround (by simp [twisted, Vec3.dot_eq])⟩

end Session

end Corotation
