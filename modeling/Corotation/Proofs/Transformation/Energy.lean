import Corotation.Proofs.Frame.Section
import Corotation.Proofs.Transformation.Acceptance
import Corotation.Proofs.Transformation.RigidLink
/-!
# The undeformed element as a linear beam

Without local forces the nodal stiffness is the material part alone, a congruence of the
section stiffness with the tangent (`nodalStiffness_zero`). Where nothing is deformed the
triad has the reference axes and both nodal y-axes along the second of them. Its tangent then
takes end displacements to the natural modes of a straight beam (`Triad.inner_straight`), so
the nodal stiffness is that of the linear beam between the ends of the arms, and no
displacements of the nodes go without energy but the rigid motions
(`undeformed_linear_beam`).
-/

namespace Corotation

open ElementVector (rigidMotions)

/-! ## Without local forces -/

namespace Triad

variable [SeriesAngle] {tol : Tolerances ℝ} (t : Triad ℝ) (x ul : ElementVector ℝ)

theorem spinMoments_zero : spinMoments tol 0 ul = 0 :=
  Ends.ext (Mat3.apply_zero _) (Mat3.apply_zero _)

theorem localForce_zero : t.localForce 0 = 0 := by
  rw [localForce]
  simp

theorem endForce_zero : t.endForce 0 0 = 0 := by
  rw [endForce, localForce_zero, zero_smul, add_zero, ElementVector.map_apply_zero]

/-- **Without local forces there is no geometric stiffness.** -/
theorem geometricStiffness_zero : ElementMatrix.apply (t.geometricStiffness tol 0 ul) x = 0 := by
  have hcurvature : ElementMatrix.apply (t.curvatureStiffness tol 0 ul) x = 0 := by
    have hmoment (theta v : Vec3 ℝ) : (Tangent.momentStiffness tol theta 0).apply v = 0 := by
      rw [Tangent.momentStiffness_apply]
      simp
    rw [curvatureStiffness_apply]
    refine Eq.trans (congrArg (t.endForce · 0) ?_) t.endForce_zero
    exact Ends.ext (hmoment _ _) (hmoment _ _)
  have hchord : ElementMatrix.apply (t.chordStiffness 0) x = 0 := by
    rw [chordStiffness_apply]
    exact zero_smul _ _
  have htriad : ElementMatrix.apply (t.triadStiffness 0) x = 0 := by
    rw [triadStiffness_apply, localForce_zero]
    refine Slots.ext_slots ?_ ?_ ?_ ?_ <;> simp
  have hlength : ElementMatrix.apply (t.lengthStiffness 0) x = 0 := by
    have hweights : t.lengthWeights 0 = 0 := by ext <;> simp [lengthWeights]
    rw [lengthStiffness_apply, hweights, Covectors.applyTranspose_zero,
      ElementVector.map_apply_zero, smul_zero]
  have htwist : ElementMatrix.apply (t.twistStiffness 0) x = 0 := by
    rw [twistStiffness_apply]
    simp
  rw [geometricStiffness, spinMoments_zero, ElementMatrix.sub_apply, ElementMatrix.add_apply,
    ElementMatrix.sub_apply, ElementMatrix.add_apply, hcurvature, hchord, htriad, hlength, htwist]
  simp

end Triad

namespace Transformation

variable [SeriesAngle] {ν : Type} {tol : Tolerances ℝ}

/-- **Without local forces the nodal stiffness is the material part.** -/
theorem nodalStiffness_zero (t : Transformation ν ℝ) (k : ElementMatrix ℝ) :
    t.nodalStiffness tol k 0 = ElementMatrix.congruence (t.tangentMap tol) k := by
  refine ElementMatrix.ext_apply fun x => ?_
  have harms : ElementMatrix.apply (armStiffness t.arm 0) x = 0 := by
    rw [armStiffness_apply]
    exact Slots.ext_slots rfl (Vec3.zero_cross _) rfl (Vec3.zero_cross _)
  have hgeometric : ElementMatrix.apply (ElementMatrix.congruence (link t.arm)
      (t.triad.geometricStiffness tol 0 t.deformation)) x = 0 := by
    rw [ElementMatrix.congruence_apply, Triad.geometricStiffness_zero, ElementMatrix.apply_zero]
  have htangent : ElementMatrix.apply (tangentTerm (t.tangentMap tol) 0 t.deformation) x = 0 := by
    have hweights : tangentWeights 0 t.deformation = 0 := by
      refine Slots.ext_slots rfl ?_ rfl ?_ <;>
      · ext <;> exact zero_mul _
    rw [tangentTerm_eq, hweights, ElementMatrix.congruence_apply,
      ElementMatrix.diagonal_zero_apply, ElementMatrix.apply_zero]
  rw [nodalStiffness, consistentStiffness, ElementMatrix.add_apply, ElementMatrix.add_apply,
    ElementMatrix.add_apply, ElementMatrix.apply_zero, hgeometric, harms, htangent, add_zero,
    add_zero, add_zero]

/-- So it is symmetric if the local one is. -/
theorem nodalStiffness_zero_transpose (t : Transformation ν ℝ) {k : ElementMatrix ℝ}
    (hk : k.transpose = k) : (t.nodalStiffness tol k 0).transpose = t.nodalStiffness tol k 0 := by
  refine (ElementMatrix.transpose_eq_self_iff _).mpr fun x y => ?_
  rw [nodalStiffness_zero, ElementMatrix.asymmetry_congruence]
  exact (ElementMatrix.transpose_eq_self_iff k).mp hk _ _

end Transformation

/-! ## The straight element -/

/-- **The natural modes of a straight triad**: with both nodal y-axes along the second axis and
without local rotations, the tangent takes end displacements to the modes of a beam along the
first axis. -/
theorem Triad.inner_straight [SeriesAngle] (tol : Tolerances ℝ) (t : Triad ℝ)
    (hmean : t.mean = ⟨0, 1, 0⟩) (hnodal : t.nodal = .both ⟨0, 1, 0⟩) (s : Section ℝ)
    (x : ElementVector ℝ) :
    let v := ElementMatrix.apply (t.deformationTangent tol 0) x
    v.inner (ElementMatrix.apply (s.stiffness t.length) v)
      = s.beamEnergy t.length (t.localize x) := by
  intro v
  have hv : v = ⟨⟨0, (t.relativeSpins x).i⟩,
      ⟨⟨(t.localize x).j.lin.x - (t.localize x).i.lin.x, 0, 0⟩, (t.relativeSpins x).j⟩⟩ := by
    have hrow : t.chordRow.inner x = (t.localize x).j.lin.x - (t.localize x).i.lin.x := by
      rw [chordRow_inner, Vec3.dot_sub]
      rfl
    refine (deformationTangent_apply tol t x 0).trans ?_
    rw [hrow]
    refine Slots.ext_slots rfl ?_ rfl ?_ <;>
    · change (Tangent.spinToVector tol 0).apply _ = _
      rw [Tangent.spinToVector_zero, Mat3.one_apply]
  rw [hv, Section.inner_stiffness, Section.beamEnergy, relativeSpins, localSpin_eq, hmean, hnodal]
  simp only [Ends.both, Vec3.sub_x, Vec3.sub_y, Vec3.sub_z]
  ring

namespace Transformation

variable [SeriesAngle] {ν : Type} {tol : Tolerances ℝ} {t : Transformation ν ℝ}
variable {position : Ends (Vec3 ℝ)} {r : Reference ℝ} {d : ElementVector ℝ}

/-- **Rigid motions of the nodes** are those of the ends of their arms. -/
theorem link_mem_rigidMotions (o : Ends (Vec3 ℝ)) : ElementMatrix.apply (link o) d
      ∈ rigidMotions ⟨position.i + o.i, position.j + o.j⟩ ↔ d ∈ rigidMotions position := by
  rw [link_apply, ElementVector.mem_rigidMotions_iff, ElementVector.mem_rigidMotions_iff]
  simp only
  refine and_congr_right fun hrot => ?_
  have harm : d.j.lin + d.i.rot.cross o.j - (d.i.lin + d.i.rot.cross o.i)
      - d.i.rot.cross (position.j + o.j - (position.i + o.i))
      = d.j.lin - d.i.lin - d.i.rot.cross (position.j - position.i) := by
    simp only [Vec3.cross_sub, Vec3.cross_add]
    abel
  rw [← hrot, ← sub_eq_zero, harm, sub_eq_zero]

/-- The chord in components of the reference axes. -/
theorem transpose_apply_chord (hr : r.IsSound tol position) :
    r.axes.transpose.apply r.chord = ⟨r.length, 0, 0⟩ := by
  have hchord : r.chord = r.axes.apply ⟨r.length, 0, 0⟩ := by
    rw [Mat3.apply_columns, hr.first_axis, hr.length, zero_smul, zero_smul, add_zero, add_zero]
    exact (Vec3.norm_smul_divide hr.determined.length_pos).symm
  rw [hchord, hr.isRotation.transpose_apply_apply]

/-- **Along the axes of its reference geometry** the rigid motions of an element are those of a
straight beam. -/
theorem beam_mem_rigidMotions (hr : r.IsSound tol position) :
    Slots.map r.axes.transpose.apply (ElementMatrix.apply (link r.offset) d)
      ∈ rigidMotions ⟨0, ⟨r.length, 0, 0⟩⟩ ↔ d ∈ rigidMotions position := by
  refine Iff.trans (ElementVector.map_mem_rigidMotions hr.isRotation.transpose ?_)
    (link_mem_rigidMotions r.offset)
  rw [← hr.chord, sub_zero, transpose_apply_chord hr]

/-! ## The undeformed element -/

section Undeformed

variable (h : IsCurrent tol t 0) (hr : t.reference.IsSound tol position)
  (hrot : t.nodalRotation = .both t.reference.axes)

include h hr hrot

/-- **The triad of an undeformed element is straight** along the reference axes. -/
theorem IsCurrent.undeformed_axes : t.triad.axes = t.reference.axes
    ∧ t.triad.length = t.reference.length ∧ t.triad.mean = ⟨0, 1, 0⟩
    ∧ t.triad.nodal = .both ⟨0, 1, 0⟩ := by
  have hnodal : t.nodalAxes = .both t.reference.axes.c2 := by
    rw [nodalAxes, hrot]
    rfl
  have hchord := (undeformed_chord hr hrot).2
  have haxes := (undeformed_triad hr hrot).2
  have hsecond : t.reference.axes.transpose.apply t.reference.axes.c2 = ⟨0, 1, 0⟩ := by
    have hcolumn : t.reference.axes.c2 = t.reference.axes.apply ⟨0, 1, 0⟩ := by
      rw [Mat3.apply_columns]
      simp
    rw [hcolumn, hr.isRotation.transpose_apply_apply]
  rw [h.triad]
  refine ⟨haxes, ?_, ?_, ?_⟩
  · change (t.deformedChord 0).norm = _
    rw [hchord, hr.length]
  · change (t.deformedTriad 0).axes.transpose.apply (Triad.meanAxis t.nodalAxes) = _
    rw [haxes, hnodal, Triad.meanAxis_both, hsecond]
  · change t.nodalAxes.map (t.deformedTriad 0).axes.transpose.apply = _
    rw [haxes, hnodal]
    exact Ends.ext hsecond hsecond

/-- **The energy of an undeformed element** is that of the linear beam between the ends of its
arms. -/
theorem IsCurrent.undeformed_inner (s : Section ℝ) (d : ElementVector ℝ) :
    d.inner (ElementMatrix.apply (t.nodalStiffness tol (s.stiffness t.reference.length) 0) d)
      = s.beamEnergy t.reference.length (Slots.map t.reference.axes.transpose.apply
          (ElementMatrix.apply (link t.reference.offset) d)) := by
  obtain ⟨haxes, hlength, hmean, hnodal⟩ := h.undeformed_axes hr hrot
  have harm : t.arm = t.reference.offset := h.arm.trans (undeformed_chord hr hrot).1
  have hdeformation : t.deformation = 0 := h.deformation.trans (localDeformation_eq_zero hr hrot)
  have hstraight := t.triad.inner_straight tol hmean hnodal s
    (ElementMatrix.apply (link t.arm) d)
  rw [nodalStiffness_zero, ElementMatrix.congruence_apply, ElementMatrix.inner_apply,
    ElementMatrix.transpose_transpose, tangentMap, ElementMatrix.mul_apply, hdeformation,
    ← hlength, hstraight, Triad.localize, haxes, harm]

end Undeformed

/-- **An undeformed element is a linear beam.** Where the nodes of an accepted attachment are
still where they were found, an update succeeds, and the nodal stiffness of a section without
local forces is symmetric. Its quadratic form at a displacement of the nodes is the energy of
the linear beam, at what that displaces the ends of the arms, along the axes of the reference
geometry. If the constants of the section are positive then the form is not negative, and
vanishes at the rigid motions of the nodes only, of which six are independent. Where the small
angle is positive the tangents at the local rotations, which are none, are read from their series
and divide by nothing. -/
theorem undeformed_linear_beam (config : Configuration ℝ) {i j : ν} {ni nj : Node ℝ}
    (hattach : ((ofConfiguration config : Transformation ν ℝ).attach tol
      [some (i, ni), some (j, nj)]).result = .ok ())
    {trial : ν → Displacement ℝ} (hi : trial i = ni.trial) (hj : trial j = nj.trial)
    (s : Section ℝ) :
    let o := ((ofConfiguration config : Transformation ν ℝ).attach tol
      [some (i, ni), some (j, nj)]).state.update tol trial
    let r := o.state.reference
    o.result = .ok () ∧ referenceOf tol config ⟨ni.position, nj.position⟩ = .ok r
      ∧ (0 < tol.smallAngle →
        Tangent.coefficients tol o.state.deformation.i.rot.norm = Tangent.series 0
          ∧ Tangent.coefficients tol o.state.deformation.j.rot.norm = Tangent.series 0)
      ∧ ∃ K notices, o.state.pushStiffness tol (s.stiffness r.length) 0 = .ok (K, notices)
        ∧ K.transpose = K
        ∧ (∀ d : ElementVector ℝ, d.inner (ElementMatrix.apply K d) = s.beamEnergy r.length
          (Slots.map r.axes.transpose.apply (ElementMatrix.apply (link r.offset) d)))
        ∧ (s.IsPositive → (∀ d : ElementVector ℝ, 0 ≤ d.inner (ElementMatrix.apply K d))
          ∧ (∀ d : ElementVector ℝ, d.inner (ElementMatrix.apply K d) = 0
            ↔ d ∈ rigidMotions ⟨ni.position, nj.position⟩)
          ∧ Module.finrank ℝ (rigidMotions ⟨ni.position, nj.position⟩) = 6) := by
  intro o r
  obtain ⟨r₀, href, hr, hstate⟩ := attached_of_accepted hattach
  set t : Transformation ν ℝ := (ofConfiguration config).attached ⟨i, j⟩ ⟨ni.trial, nj.trial⟩ r₀
  have hzero : t.displacement ((⟨i, j⟩ : Ends ν).map trial) = 0 := by
    change (⟨trial i, trial j⟩ : Ends (Displacement ℝ)) - t.initial = 0
    rw [Session.attached_initial, hi, hj, sub_self]
  obtain ⟨hrot, hupdate⟩ := update_undeformed_eq (attached_isSound _ _ _ hr)
    (attached_isBound _ _ _ _) (attached_nodalRotation _ _ _ hr) rfl hzero
  have ho : o = .ok ((t.moved (.both 0)).evaluated 0 tol) () :=
    (congrArg (·.update tol trial) hstate).trans hupdate
  have hreference : r = r₀ := congrArg (·.state.reference) ho
  have hlength : 0 < r₀.length := hr.length ▸ hr.determined.length_pos
  have hcurrent : IsCurrent tol ((t.moved (.both 0)).evaluated 0 tol) 0 :=
    isCurrent_evaluated rfl (undeformed_triad hr hrot).1
  have hdeformation : o.state.deformation = 0 :=
    (congrArg (·.state.deformation) ho).trans (localDeformation_eq_zero hr hrot)
  have hseries (hsmall : 0 < tol.smallAngle) :
      Tangent.coefficients tol (0 : Vec3 ℝ).norm = Tangent.series 0 := by
    rw [Vec3.norm_zero, Tangent.coefficients_of_lt hsmall]
  have hform := hcurrent.undeformed_inner hr hrot s
  rw [hdeformation, hreference, ho]
  refine ⟨rfl, href, fun hsmall => ⟨hseries hsmall, hseries hsmall⟩, _, _,
    (hcurrent.projections _ 0).2,
    nodalStiffness_zero_transpose _ (s.stiffness_transpose _), hform,
    fun hs => ⟨fun d => ?_, fun d => ?_, ElementVector.finrank_rigidMotions _⟩⟩
  · exact (hs.beamEnergy_nonneg hlength).trans_eq (hform d).symm
  · rw [← beam_mem_rigidMotions hr, ← hs.beamEnergy_eq_zero_iff hlength]
    exact Eq.congr_left (hform d)

end Transformation

namespace Session

/-- The braced element with unit constants. -/
theorem undeformed_linear_beam_braced :
    letI : SeriesAngle := .exact
    let a := (Transformation.ofConfiguration braced : Transformation Bool ℝ).attach .standard
      [some (false, bracedNodes.i), some (true, bracedNodes.j)]
    let o := a.state.update .standard (pairTrial 0)
    let s : Section ℝ := ⟨1, 1, 1, 1, 1, 1⟩
    0 < (Tolerances.standard : Tolerances ℝ).smallAngle ∧ a.result = .ok ()
      ∧ Tangent.coefficients .standard o.state.deformation.i.rot.norm = Tangent.series 0
      ∧ ∃ K notices, o.state.pushStiffness .standard (s.stiffness o.state.reference.length) 0
          = .ok (K, notices)
        ∧ K.transpose = K
        ∧ (∀ d : ElementVector ℝ, d.inner (ElementMatrix.apply K d) = 0
          ↔ d ∈ rigidMotions ⟨bracedNodes.i.position, bracedNodes.j.position⟩) := by
  let _ : SeriesAngle := .exact
  intro a o s
  have h0 := Tolerances.standard_admissible_exact.parallel_nonneg
  have hsmall : 0 < (Tolerances.standard : Tolerances ℝ).smallAngle :=
    Tolerances.standard_admissible_exact.series_lt
  obtain ⟨r, href⟩ := braced_reference h0
    (Tolerances.standard_parallel_lt_cos.trans_le (Real.cos_le_one 1))
  have hattach := (Transformation.attach_eq (t := .ofConfiguration braced) (i := false) (j := true)
    h0 href).1
  have hi : pairTrial 0 false = bracedNodes.i.trial := rfl
  have hj : pairTrial 0 true = bracedNodes.j.trial := rfl
  obtain ⟨-, -, hseries, K, notices, hK, hsymmetric, -, hpositive⟩ :=
    Transformation.undeformed_linear_beam braced hattach hi hj s
  have hs : s.IsPositive := ⟨one_pos, one_pos, one_pos, one_pos, one_pos, one_pos⟩
  exact ⟨hsmall, hattach, (hseries hsmall).1, K, notices, hK, hsymmetric, (hpositive hs).2.1⟩

end Session

end Corotation
