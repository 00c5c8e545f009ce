import Corotation.Proofs.Transformation.Direction
import Corotation.Proofs.Transformation.Twisted
/-!
# The derivatives of a session

In the stage `current` of any session the map of a small move of the nodes to
what one further update finds is differentiable. The local deformations have
the derivative that the session reports as its tangent
(`hasRate_deformation`). The nodal forces of local forces that follow the
deformations with a stiffness `kl` have the derivative that it reports as its
stiffness, but for the term with the tangents of the local rotations, which is
no derivative of anything (`hasRate_pushForce`).

Both hold with exact rotations and with rotations by series, where the series
do not reach the small angle of the tolerances.
-/

open Topology

namespace Corotation

namespace Transformation

variable [SeriesAngle] {ν : Type} {tol : Tolerances ℝ} {t : Transformation ν ℝ}
variable {d x : Ends (Displacement ℝ)} {position : Ends (Vec3 ℝ)} {nodes : Ends ν}

/-- **The way starts at the current state.** -/
theorem IsCurrent.along_zero (h : IsCurrent tol t d) (x : Ends (Displacement ℝ)) :
    (t.along d x 0).deformedArm = t.arm ∧ t.triadAlong d x 0 = t.triad
      ∧ t.deformationAlong d x 0 = t.deformation
      ∧ Determines tol (t.along d x 0) (d + (0 : ℝ) • x) := by
  have hrot := Transformation.along_zero (x := x) h.seen
  have hd : d + (0 : ℝ) • x = d := by rw [zero_smul, add_zero]
  have harm : (t.along d x 0).deformedArm = t.deformedArm := by
    change t.armsOf (t.along d x 0).nodalRotation = _
    rw [hrot]
    rfl
  have hchord : (t.along d x 0).deformedChord (d + (0 : ℝ) • x) = t.deformedChord d := by
    change t.chordOf (d + (0 : ℝ) • x) (t.along d x 0).deformedArm = _
    rw [harm, hd]
    rfl
  have haxes : (t.along d x 0).nodalAxes = t.nodalAxes := by
    rw [nodalAxes, hrot]
    rfl
  have htriad : t.triadAlong d x 0 = t.deformedTriad d := by
    rw [triadAlong, deformedTriad, haxes, hchord]
    rfl
  refine ⟨harm.trans h.arm.symm, htriad.trans h.triad.symm, ?_, ?_⟩
  · rw [h.deformation, deformationAlong, localDeformation, hchord]
    change deformationOf ((t.deformedChord d).norm - t.reference.length)
      (((t.along d x 0).relativeRotation (t.triadAlong d x 0)).map Versor.logarithm) = _
    rw [htriad, relativeRotation, hrot]
    rfl
  · rw [Determines, haxes, hchord]
    exact h.determines

/-- A node that moved on by `s • x` reports that much more. -/
theorem displacement_add (t : Transformation ν ℝ) (reported : Ends (Displacement ℝ)) (s : ℝ) :
    t.displacement (reported + s • x) = t.displacement reported + s • x :=
  add_sub_right_comm _ _ _

/-- **Near the start of the way the update succeeds** and evaluates there. -/
theorem eventually_update (htol : tol.Admissible) (h : IsCurrent tol t d)
    (hsound : t.IsSound tol position) (hbound : IsBound t nodes)
    {reported : Ends (Displacement ℝ)} (hd : d = t.displacement reported)
    {probe : ℝ → ν → Displacement ℝ} (hprobe : ∀ s, nodes.map (probe s) = reported + s • x) :
    ∀ᶠ s in 𝓝 (0 : ℝ),
      t.update tol (probe s) = .ok ((t.along d x s).evaluated (d + s • x) tol) () := by
  obtain ⟨-, -, -, hdet⟩ := h.along_zero x
  filter_upwards [eventually_determines htol.series_nonneg h.seen hdet] with s hs
  refine update_of_determines htol.parallel_nonneg hsound.versors hbound ?_ hs
  rw [hprobe, displacement_add, hd]

section Current

variable (htol : tol.Admissible) (h : IsCurrent tol t d) (hversors : HasVersors t)

include htol h hversors

/-- **From a current state the local deformations move by its tangent.** -/
theorem IsCurrent.hasRate_deformationAlong (hi : tol.Covers t.deformation.i.rot)
    (hj : tol.Covers t.deformation.j.rot) :
    ElementVector.HasRate (t.deformationAlong d x)
      (ElementMatrix.apply (t.tangentMap tol) x) 0 := by
  obtain ⟨harm, htriad, hdeformation, hdet⟩ := h.along_zero x
  refine (Transformation.hasRate_deformationAlong htol.parallel_nonneg htol.series_nonneg
    htol.series_lt hversors h.seen hdet (hdeformation ▸ ⟨hi, hj⟩)).congr_rate ?_
  rw [tangentMap, ElementMatrix.mul_apply, htriad, hdeformation, endRate, harm]

/-- **And the nodal forces of moving local forces** move by its transposed
tangent and by its stiffness without the material part. -/
theorem IsCurrent.hasRate_nodalForce (hi : tol.CoversAround t.deformation.i.rot)
    (hj : tol.CoversAround t.deformation.j.rot) {p : ℝ → ElementVector ℝ} {p' : ElementVector ℝ}
    (hforce : ElementVector.HasRate p p' 0) :
    ElementVector.HasRate
      (fun s => ElementMatrix.apply
        (((t.along d x s).evaluated (d + s • x) tol).tangentMap tol).transpose (p s))
      (ElementMatrix.apply (t.tangentMap tol).transpose p'
        + ElementMatrix.apply (ElementMatrix.congruence (link t.arm)
          (t.triad.geometricStiffness tol (p 0) t.deformation)) x
        + ElementMatrix.apply (armStiffness t.arm
          (ElementMatrix.apply (t.tangentMap tol).transpose (p 0))) x) 0 := by
  obtain ⟨harm, htriad, hdeformation, hdet⟩ := h.along_zero x
  refine (Transformation.hasRate_nodalForce htol.parallel_nonneg htol.series_nonneg htol.series_lt
    hversors h.seen hdet (hdeformation ▸ ⟨hi, hj⟩) hforce).congr_rate ?_
  rw [harm, htriad, hdeformation]
  rfl

end Current

end Transformation

namespace Session

variable [SeriesAngle] {ν : Type} {tol : Tolerances ℝ}

/-- **The tangent is the derivative of the local deformations.** From any
current state of any session, along any direction `x` of the displacements of
the nodes: close enough to the state the update succeeds, the local
deformations it finds are differentiable, and their derivative is the tangent
of the state applied to `x`. The tolerances have to cover both local
rotations. Of the linear rows only the axial one of the second end is not
zero. -/
theorem hasRate_deformation (htol : tol.Admissible) (config : Configuration ℝ)
    (calls : List (Call ν ℝ)) (x : ElementVector ℝ) {nodes : Ends ν}
    {probe : ℝ → ν → Displacement ℝ}
    (hcurrent : (run tol config calls).transformation.stage = .current)
    (hnodes : (run tol config calls).transformation.nodes = some nodes)
    (hi : tol.Covers (run tol config calls).transformation.deformation.i.rot)
    (hj : tol.Covers (run tol config calls).transformation.deformation.j.rot)
    (hprobe : ∀ s, nodes.map (probe s) = (run tol config calls).reported + s • x) :
    let t := (run tol config calls).transformation
    (∀ᶠ s in 𝓝 (0 : ℝ), (t.update tol (probe s)).result = .ok ())
      ∧ ∃ T, t.tangent? = .ok T
        ∧ ElementVector.HasRate (fun s => (t.update tol (probe s)).state.deformation)
          (ElementMatrix.apply T x) 0
        ∧ (ElementMatrix.apply T x).i.lin = 0
        ∧ (ElementMatrix.apply T x).j.lin.y = 0 ∧ (ElementMatrix.apply T x).j.lin.z = 0 := by
  intro t
  obtain ⟨h, hsound, hstage⟩ : t.IsCurrent tol (run tol config calls).displacement
      ∧ t.IsSound tol (run tol config calls).position ∧ t.stage ≠ .uninitialized :=
    (run_consistent htol.parallel_nonneg config calls).of_current hcurrent
  have hupdate := Transformation.eventually_update htol h hsound ⟨hstage, hnodes⟩ rfl hprobe
  have hrate := h.hasRate_deformationAlong (x := x) htol hsound.versors hi hj
  refine ⟨hupdate.mono fun s hs => by rw [hs]; rfl, _, h.tangent, ?_, ?_⟩
  · exact hrate.congr_of_eventuallyEq
      (hupdate.mono fun s hs => congrArg (fun o => o.state.deformation) hs)
  · rw [Transformation.tangentMap, ElementMatrix.mul_apply, Triad.deformationTangent_apply]
    exact ⟨rfl, rfl, rfl⟩

omit [SeriesAngle] in
/-- The twisted element with exact rotations, one node turning on and the other
moving away. -/
theorem hasRate_deformation_twisted :
    letI : SeriesAngle := .exact
    let t := (twistedSession .standard).transformation
    let x : ElementVector ℝ := ⟨⟨0, ⟨0, 0, 1⟩⟩, ⟨⟨1, 0, 0⟩, 0⟩⟩
    ∃ T, t.tangent? = .ok T ∧ ElementVector.HasRate
      (fun s : ℝ =>
        (t.update .standard (pairTrial (Transformation.twisted 1 + s • x))).state.deformation)
      (ElementMatrix.apply T x) 0 := by
  let _ : SeriesAngle := .exact
  intro t x
  obtain ⟨hstage, hnodes, hreported, hi, hj⟩ := twistedSession_standard
  have hprobe (s : ℝ) :
      (⟨false, true⟩ : Ends Bool).map (pairTrial (Transformation.twisted 1 + s • x))
        = (twistedSession .standard).reported + s • x := by
    rw [hreported]
    rfl
  obtain ⟨-, T, hT, hrate, -⟩ := hasRate_deformation Tolerances.standard_admissible_exact straight _
    x hstage hnodes hi.covers hj.covers hprobe
  exact ⟨T, hT, hrate⟩

/-- **The stiffness but for its tangent term is the derivative of the nodal
forces.** From any current state of any session, along any direction `x` of the
displacements of the nodes, with local forces that follow the local
deformations with any stiffness `kl` from any forces `pl`: close enough to the
state the update and the mapping of the forces succeed, the nodal forces are
differentiable, and their derivative is what the session reports as its
stiffness, less the term with the tangents of the local rotations
(`Transformation.tangentTerm_eq`), applied to `x`. The tolerances have to cover
both local rotations with what is around them. -/
theorem hasRate_pushForce (htol : tol.Admissible) (config : Configuration ℝ)
    (calls : List (Call ν ℝ)) (x : ElementVector ℝ) (kl : ElementMatrix ℝ)
    (pl : ElementVector ℝ) {nodes : Ends ν} {probe : ℝ → ν → Displacement ℝ}
    (hcurrent : (run tol config calls).transformation.stage = .current)
    (hnodes : (run tol config calls).transformation.nodes = some nodes)
    (hi : tol.CoversAround (run tol config calls).transformation.deformation.i.rot)
    (hj : tol.CoversAround (run tol config calls).transformation.deformation.j.rot)
    (hprobe : ∀ s, nodes.map (probe s) = (run tol config calls).reported + s • x) :
    let t := (run tol config calls).transformation
    ∃ T K notices force, t.tangent? = .ok T ∧ t.pushStiffness tol kl pl = .ok (K, notices)
      ∧ (∀ᶠ s in 𝓝 (0 : ℝ), (t.update tol (probe s)).result = .ok ()
        ∧ (t.update tol (probe s)).state.pushForce
          (pl + ElementMatrix.apply kl
            ((t.update tol (probe s)).state.deformation - t.deformation)) = .ok (force s))
      ∧ ElementVector.HasRate force
        (ElementMatrix.apply (ElementMatrix.sub K (Transformation.tangentTerm T pl t.deformation))
          x) 0 := by
  intro t
  obtain ⟨h, hsound, hstage⟩ : t.IsCurrent tol (run tol config calls).displacement
      ∧ t.IsSound tol (run tol config calls).position ∧ t.stage ≠ .uninitialized :=
    (run_consistent htol.parallel_nonneg config calls).of_current hcurrent
  have hupdate := Transformation.eventually_update htol h hsound ⟨hstage, hnodes⟩ rfl hprobe
  have hrate := h.hasRate_deformationAlong (x := x) htol hsound.versors hi.covers hj.covers
  -- the local forces follow the deformations
  have hlocal := (ElementVector.HasRate.const pl 0).add
    ((hrate.sub (.const t.deformation 0)).apply kl)
  have hforce := h.hasRate_nodalForce (x := x) htol hsound.versors hi hj hlocal
  refine ⟨_, _, _, _, h.tangent, by rw [Transformation.pushStiffness, h.tangent]; rfl,
    hupdate.mono fun s hs => ?_, hforce.congr_rate ?_⟩
  · rw [hs]
    exact ⟨rfl, rfl⟩
  · have hstart : t.deformationAlong (run tol config calls).displacement x 0 = t.deformation :=
      (h.along_zero x).2.2.1
    rw [hstart, sub_self, ElementMatrix.apply_zero, add_zero, zero_add, sub_zero,
      ElementMatrix.sub_apply, ElementMatrix.add_apply, add_sub_cancel_right,
      Transformation.consistentStiffness, ElementMatrix.add_apply, ElementMatrix.add_apply,
      ElementMatrix.congruence_apply _ kl]

omit [SeriesAngle] in
/-- The twisted element with exact rotations, under an axial force, a moment across it and a
moment along it, with unit stiffnesses. The moment along it has a weight, as the nodes have
turned about that axis. -/
theorem hasRate_pushForce_twisted :
    letI : SeriesAngle := .exact
    let t := (twistedSession .standard).transformation
    let x : ElementVector ℝ := ⟨⟨0, ⟨0, 0, 1⟩⟩, ⟨⟨1, 0, 0⟩, 0⟩⟩
    let pl : ElementVector ℝ := ⟨⟨0, ⟨1, 1, 0⟩⟩, ⟨⟨1, 0, 0⟩, 0⟩⟩
    let probe (s : ℝ) : Bool → Displacement ℝ := pairTrial (Transformation.twisted 1 + s • x)
    0 < Real.tan 1
      ∧ Transformation.tangentWeights pl t.deformation = ⟨⟨0, ⟨Real.tan 1, 0, 0⟩⟩, 0⟩
      ∧ ∃ T K notices force, t.tangent? = .ok T
        ∧ t.pushStiffness .standard .identity pl = .ok (K, notices)
        ∧ (∀ᶠ s in 𝓝 (0 : ℝ), (t.update .standard (probe s)).result = .ok ()
          ∧ (t.update .standard (probe s)).state.pushForce
            (pl + ElementMatrix.apply .identity
              ((t.update .standard (probe s)).state.deformation - t.deformation)) = .ok (force s))
        ∧ ElementVector.HasRate force
          (ElementMatrix.apply
            (ElementMatrix.sub K (Transformation.tangentTerm T pl t.deformation)) x) 0 := by
  let _ : SeriesAngle := .exact
  intro t x pl probe
  obtain ⟨hstage, hnodes, hreported, hi, hj⟩ := twistedSession_standard
  have hprobe (s : ℝ) : (⟨false, true⟩ : Ends Bool).map (probe s)
      = (twistedSession .standard).reported + s • x := by
    rw [hreported]
    rfl
  have hdeformation : t.deformation = Transformation.twisted 1 :=
    (twistedSession_current le_rfl one_pos
      Tolerances.standard_admissible_exact.parallel_nonneg
      Tolerances.standard_parallel_lt_cos).2.2.2
  have hweights : Transformation.tangentWeights pl t.deformation
      = ⟨⟨0, ⟨Real.tan 1, 0, 0⟩⟩, 0⟩ := by
    rw [hdeformation, Transformation.tangentWeights_eq]
    refine Slots.ext_slots rfl ?_ rfl ?_ <;>
    · ext <;> simp [pl, Transformation.twisted]
  have htan : 0 < Real.tan 1 := by
    rw [Real.tan_eq_sin_div_cos]
    exact div_pos (Real.sin_pos_of_pos_of_le_one one_pos le_rfl) Real.cos_one_pos
  exact ⟨htan, hweights, hasRate_pushForce Tolerances.standard_admissible_exact straight _ x
    .identity pl hstage hnodes hi hj hprobe⟩

end Session

end Corotation
