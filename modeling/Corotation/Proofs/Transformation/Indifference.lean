import Corotation.Proofs.Frame.Coordinates
import Corotation.Proofs.Transformation.Currency
import Corotation.Proofs.Transformation.Objectivity
/-!
# Elements in other coordinates

An element and its description in another system of coordinates go through the same
lifecycle. Every operation does to the description what it does to the element
(`IsDescription.perform`): the reference geometry, the nodal rotations, the triad and the
arms stay those of the element, rotated, lengths and local deformations stay the
same, and what is refused in one system is refused in the other for the same
reason. The matrices of the orientations correspond, and the versors need not, since
the extraction of a versor from a matrix knows no other coordinates.

So it is after any run (`run_isDescription`), and the projections of the description are
those of the element between the block diagonal of the rotation and its transpose
(`frame_indifference`).
-/

namespace Corotation

namespace Coordinates

variable [SeriesAngle] (f : Coordinates)

/-- An operation in the second system, with what its nodes report there. -/
noncomputable def call {ν : Type} : Call ν ℝ → Call ν ℝ
  | .attach nodes => .attach (nodes.map (Option.map fun n => (n.1, f.node n.2)))
  | .update trial => .update (f.displacement ∘ trial)
  | .commit => .commit
  | .revert trial => .revert (f.displacement ∘ trial)
  | .reset trial => .reset (f.displacement ∘ trial)

end Coordinates

namespace Transformation

variable [SeriesAngle] {ν : Type} {tol : Tolerances ℝ} {f : Coordinates}
variable {t t' : Transformation ν ℝ} {d : Ends (Displacement ℝ)} {nodes : Ends ν}

/-! ## Descriptions -/

/-- What an initialized element and its description have in common: beside what turns
with the body, the reference geometry, what was seen and what was committed. -/
structure IsBodyImage (f : Coordinates) (t t' : Transformation ν ℝ) : Prop where
  turned : IsTurned f.rotation t { t' with config := t.config }
  reference : t'.reference = f.reference t.reference
  seen : t'.seen = t.seen.map f.vector
  committedRotation : t'.committedVersor.map Versor.toMatrix
    = (t.committedVersor.map Versor.toMatrix).map (f.rotation * ·)
  committed : t'.committed = t.committed

/-- **A description of an element in the second system.** -/
structure IsDescription (f : Coordinates) (t t' : Transformation ν ℝ) : Prop where
  config : t'.config = f.configuration t.config
  nodes : t'.nodes = t.nodes
  stage : t'.stage = t.stage
  capture : t'.capture = t.capture
  initial : t'.initial = t.initial.map f.displacement
  body : t.stage ≠ .uninitialized → IsBodyImage f t t'

namespace IsDescription

theorem tag (h : IsDescription f t t') : t'.tag = t.tag := by
  rw [Transformation.tag, h.config, Transformation.tag]
  rfl

/-- The description has the same nodes bound. -/
theorem bound? (h : IsDescription f t t') : t'.bound? = t.bound? := by
  unfold Transformation.bound?
  rw [h.stage, h.nodes, h.tag]

theorem isBound (h : IsDescription f t t') (hbound : IsBound t nodes) : IsBound t' nodes :=
  ⟨by rw [h.stage]; exact hbound.stage, h.nodes.trans hbound.nodes⟩

/-- Displacements in the second system, less what was captured there. -/
theorem displacement (h : IsDescription f t t') (d : Ends (Displacement ℝ)) :
    t'.displacement (d.map f.displacement) = (t.displacement d).map f.displacement := by
  rw [Transformation.displacement, h.initial]
  refine Slots.ext_slots ?_ ?_ ?_ ?_ <;> exact (f.vector_sub _ _).symm

end IsDescription

/-! ## Evaluations -/

section Evaluations

variable (h : IsBodyImage f t t') (d : Ends (Displacement ℝ))

include h

theorem IsBodyImage.nodalRotation : t'.nodalRotation = t.nodalRotation.map (f.rotation * ·) :=
  h.turned.nodalRotation

theorem IsBodyImage.deformedArm : t'.deformedArm = t.deformedArm.map f.vector := by
  have harm (R m : Mat3 ℝ) (o : Vec3 ℝ) :
      (f.rotation * R * (f.rotation * m).transpose).apply (f.vector o)
        = f.vector ((R * m.transpose).apply o) := by
    simp only [Coordinates.vector, Mat3.transpose_mul, Mat3.mul_apply,
      f.isRotation.transpose_apply_apply]
  rw [Transformation.deformedArm, armsOf, h.nodalRotation, h.reference]
  exact Ends.ext (harm _ _ _) (harm _ _ _)

theorem IsBodyImage.deformedChord :
    t'.deformedChord (d.map f.displacement) = f.vector (t.deformedChord d) := by
  rw [Transformation.deformedChord, h.deformedArm, chordOf, h.reference,
    Transformation.deformedChord,
    chordOf, f.vector_sub, f.vector_add, f.vector_sub, f.vector_add, f.vector_sub, f.vector_add]
  rfl

theorem IsBodyImage.nodalAxes : t'.nodalAxes = t.nodalAxes.map f.rotation.apply := by
  rw [Transformation.nodalAxes, h.nodalRotation]
  exact Ends.ext (Mat3.mul_c2 _ _) (Mat3.mul_c2 _ _)

/-- A triad is determined in both systems or in none. -/
theorem IsBodyImage.determines :
    Determines tol t' (d.map f.displacement) ↔ Determines tol t d := by
  have hnormal : Triad.normal (t.nodalAxes.map f.rotation.apply) (f.vector (t.deformedChord d))
      = f.rotation.apply (Triad.normal t.nodalAxes (t.deformedChord d)) :=
    Triad.normal_turn f.isRotation
  rw [Determines, Determines, h.nodalAxes, h.deformedChord]
  refine ⟨fun hdet => ⟨?_, ?_⟩, fun hdet => hdet.turn f.isRotation⟩
  · rw [← f.vector_norm]
    exact hdet.length_pos
  · rw [← f.isRotation.norm_apply, ← hnormal]
    exact hdet.across

theorem IsBodyImage.deformedTriad :
    t'.deformedTriad (d.map f.displacement) = (t.deformedTriad d).turn f.rotation := by
  rw [Transformation.deformedTriad, h.nodalAxes, h.deformedChord]
  exact Triad.between_turn f.isRotation

theorem IsBodyImage.localDeformation :
    t'.localDeformation (d.map f.displacement) = t.localDeformation d := by
  have hrelative : t'.relativeRotation (t'.deformedTriad (d.map f.displacement))
      = t.relativeRotation (t.deformedTriad d) := by
    rw [relativeRotation, h.deformedTriad, h.nodalRotation]
    exact Ends.ext (f.isRotation.transpose_mul_mul _ _) (f.isRotation.transpose_mul_mul _ _)
  rw [Transformation.localDeformation, hrelative, h.deformedChord, f.vector_norm, h.reference]
  rfl

/-- **What an evaluation finds** in the second system. -/
theorem IsBodyImage.evaluated :
    IsBodyImage f (t.evaluated d tol) (t'.evaluated (d.map f.displacement) tol) where
  turned :=
    { config := rfl
      nodalRotation := h.nodalRotation
      arm := h.deformedArm
      triad := h.deformedTriad d
      length := by
        change (t'.deformedChord _).norm = (t.deformedChord d).norm
        rw [h.deformedChord, f.vector_norm]
      deformation := h.localDeformation d }
  reference := h.reference
  seen := h.seen
  committedRotation := h.committedRotation
  committed := h.committed

/-- **Turns** by the increments in the second system. -/
theorem IsBodyImage.moved (rot : Ends (Vec3 ℝ)) :
    IsBodyImage f (t.moved rot) (t'.moved (rot.map f.vector)) where
  turned :=
    { config := rfl
      nodalRotation := by
        have hturn (a s : Vec3 ℝ) (R : Mat3 ℝ) :
            (Versor.turn (f.vector a - f.vector s)).toMatrix * (f.rotation * R)
              = f.rotation * ((Versor.turn (a - s)).toMatrix * R) := by
          rw [← f.vector_sub, Coordinates.vector, Versor.toMatrix_turn_apply f.isRotation,
            mul_assoc,
            ← mul_assoc f.rotation.transpose, f.isRotation.transpose_mul, one_mul, mul_assoc]
        change (t'.moved (rot.map f.vector)).nodalRotation = _
        rw [moved_nodalRotation, moved_nodalRotation, h.nodalRotation, h.seen]
        exact Ends.ext (hturn _ _ _) (hturn _ _ _)
      arm := h.turned.arm
      triad := h.turned.triad
      length := h.turned.length
      deformation := h.turned.deformation }
  reference := h.reference
  seen := rfl
  committedRotation := h.committedRotation
  committed := h.committed

end Evaluations

/-! ## Operations -/

/-- The outcome of an operation in the second system: it leaves a description of what
the operation leaves in the first one, and succeeds or is refused as that. -/
structure IsOutcomeImage (f : Coordinates) (o o' : Outcome ℝ (Transformation ν ℝ) Unit) : Prop where
  state : IsDescription f o.state o'.state
  result : IsImage id o.result o'.result

/-- A second operation on what the first one leaves. -/
theorem IsOutcomeImage.andThen {o o' : Outcome ℝ (Transformation ν ℝ) Unit}
    {next next' : Transformation ν ℝ → Unit → Outcome ℝ (Transformation ν ℝ) Unit}
    (h : IsOutcomeImage f o o')
    (hnext : ∀ u u', IsDescription f u u' → IsOutcomeImage f (next u ()) (next' u' ())) :
    IsOutcomeImage f (o.andThen next) (o'.andThen next') := by
  have hsecond := hnext _ _ h.state
  unfold Outcome.andThen
  rcases h.result.cases with ⟨b, hok, hok'⟩ | ⟨e, e', hfail, hfail', he⟩
  · rw [hok, hok']
    exact ⟨hsecond.state, hsecond.result⟩
  · rw [hfail, hfail']
    exact ⟨h.state, he⟩

/-- A description with another body. -/
theorem IsDescription.withBody (h : IsDescription f t t') {u u' : Transformation ν ℝ}
    (hkeeps : u.config = t.config ∧ u.nodes = t.nodes ∧ u.capture = t.capture
      ∧ u.initial = t.initial)
    (hkeeps' : u'.config = t'.config ∧ u'.nodes = t'.nodes ∧ u'.capture = t'.capture
      ∧ u'.initial = t'.initial) (hstage : u'.stage = u.stage) (hbody : IsBodyImage f u u') :
    IsDescription f u u' := by
  obtain ⟨hconfig, hnodes, hcapture, hinitial⟩ := hkeeps
  obtain ⟨hconfig', hnodes', hcapture', hinitial'⟩ := hkeeps'
  exact ⟨by rw [hconfig', h.config, hconfig], by rw [hnodes', h.nodes, hnodes], hstage,
    by rw [hcapture', h.capture, hcapture], by rw [hinitial', h.initial, hinitial], fun _ => hbody⟩

/-- An operation that is refused for want of bound nodes is so in both systems. -/
theorem IsDescription.refused (h : IsDescription f t t') (e : Failure ℝ) :
    IsOutcomeImage f (.fail t e) (.fail t' e) := ⟨h, rfl⟩

/-- **An update** in the second system. -/
theorem IsDescription.update (h0 : 0 ≤ tol.parallel) (h : IsDescription f t t')
    (hversors : HasVersors t) (hversors' : HasVersors t') (hbound : IsBound t nodes)
    (trial : ν → Displacement ℝ) :
    IsOutcomeImage f (t.update tol trial) (t'.update tol (f.displacement ∘ trial)) := by
  have hbound' := h.isBound hbound
  have hd : t'.displacement (nodes.map (f.displacement ∘ trial))
      = (t.displacement (nodes.map trial)).map f.displacement :=
    h.displacement (nodes.map trial)
  set d := t.displacement (nodes.map trial)
  have hmoved : IsBodyImage f (t.moved (d.map Screw.rot))
      (t'.moved ((d.map f.displacement).map Screw.rot)) := (h.body hbound.stage).moved _
  -- whether a triad is determined is the same question in both systems
  by_cases hdet : Determines tol (t.moved (d.map Screw.rot)) d
  · rw [update_of_determines h0 hversors hbound rfl hdet,
      update_of_determines h0 hversors' hbound' hd ((hmoved.determines d).mpr hdet)]
    exact ⟨h.withBody ⟨rfl, rfl, rfl, rfl⟩ ⟨rfl, rfl, rfl, rfl⟩ rfl (hmoved.evaluated d), rfl⟩
  · have hdet' := mt (hmoved.determines d).mp hdet
    have htag : (t'.moved ((d.map f.displacement).map Screw.rot)).tag
        = (t.moved (d.map Screw.rot)).tag := h.tag
    rw [update_eq hversors hbound, update_eq hversors' hbound', hd,
      evaluate_of_not_determines hdet, evaluate_of_not_determines hdet']
    refine ⟨h.withBody ⟨rfl, rfl, rfl, rfl⟩ ⟨rfl, rfl, rfl, rfl⟩ rfl hmoved, ?_⟩
    change (refusal _ _).blank = (refusal _ _).blank
    rw [refusal, refusal, hmoved.deformedChord, f.vector_norm, htag]

/-- A commit in the second system. -/
theorem IsDescription.snapshot (h : IsDescription f t t') (hstage : t.stage ≠ .uninitialized) :
    IsDescription f t.snapshot t'.snapshot :=
  have hbody := h.body hstage
  h.withBody ⟨rfl, rfl, rfl, rfl⟩ ⟨rfl, rfl, rfl, rfl⟩ h.stage
    { turned := ⟨rfl, hbody.nodalRotation, hbody.turned.arm, hbody.turned.triad,
        hbody.turned.length, hbody.turned.deformation⟩
      reference := hbody.reference
      seen := hbody.seen
      committedRotation := hbody.nodalRotation
      committed := hbody.turned.deformation }

theorem IsDescription.commit (h : IsDescription f t t') :
    IsOutcomeImage f t.commit t'.commit := by
  cases hbound : t.bound? with
  | error e =>
    unfold Transformation.commit
    rw [hbound, h.bound?, hbound]
    exact h.refused e
  | ok nodes =>
    rw [commit_of_bound hbound, commit_of_bound (h.bound?.trans hbound)]
    exact ⟨h.snapshot (bound?_eq_ok_iff.mp hbound).1, rfl⟩

/-- **A revert** in the second system. -/
theorem IsDescription.revert (h0 : 0 ≤ tol.parallel) (h : IsDescription f t t')
    (hversors : HasVersors t) (hversors' : HasVersors t') (hbound : IsBound t nodes)
    (trial : ν → Displacement ℝ) :
    IsOutcomeImage f (t.revert tol trial) (t'.revert tol (f.displacement ∘ trial)) := by
  have hbody := h.body hbound.stage
  have hseen : (t'.displacement (nodes.map (f.displacement ∘ trial))).map Screw.rot
      = ((t.displacement (nodes.map trial)).map Screw.rot).map f.vector :=
    congrArg (Ends.map Screw.rot) (h.displacement (nodes.map trial))
  have hrestore : IsDescription f (t.restore (nodes.map trial))
      (t'.restore (nodes.map (f.displacement ∘ trial))) :=
    h.withBody ⟨rfl, rfl, rfl, rfl⟩ ⟨rfl, rfl, rfl, rfl⟩ h.stage
      { turned := ⟨rfl, hbody.committedRotation, hbody.turned.arm, hbody.turned.triad,
          hbody.turned.length, hbody.committed⟩
        reference := hbody.reference
        seen := hseen
        committedRotation := hbody.committedRotation
        committed := hbody.committed }
  rw [revert_of_bound hbound.bound?, revert_of_bound (h.isBound hbound).bound?]
  exact hrestore.update h0 (hversors.restore _) (hversors'.restore _)
    ⟨hbound.stage, hbound.nodes⟩ trial

/-- **A reset** in the second system. -/
theorem IsDescription.reset (h0 : 0 ≤ tol.parallel) (h : IsDescription f t t')
    {position position' : Ends (Vec3 ℝ)} (hsound : t.IsSound tol position)
    (hsound' : t'.IsSound tol position') (hbound : IsBound t nodes) (trial : ν → Displacement ℝ) :
    IsOutcomeImage f (t.reset tol trial) (t'.reset tol (f.displacement ∘ trial)) := by
  have hr := hsound.reference.isRotation
  have hr' := hsound'.reference.isRotation
  have hbody := h.body hbound.stage
  -- versors are taken from the axes anew in each system, so that only the rotations they
  -- stand for are known to correspond
  have hrotation : (Versor.ofRotation t'.reference.axes).toMatrix
      = f.rotation * (Versor.ofRotation t.reference.axes).toMatrix := by
    rw [Versor.toMatrix_ofRotation hr, Versor.toMatrix_ofRotation hr', hbody.reference]
    rfl
  have hstart : IsDescription f (t.backAtStart (.ofRotation t.reference.axes))
      (t'.backAtStart (.ofRotation t'.reference.axes)) :=
    h.withBody ⟨rfl, rfl, rfl, rfl⟩ ⟨rfl, rfl, rfl, rfl⟩ h.stage
      { turned := ⟨rfl, Ends.ext hrotation hrotation, hbody.turned.arm, hbody.turned.triad,
          hbody.turned.length, rfl⟩
        reference := hbody.reference
        seen := Ends.ext f.vector_zero.symm f.vector_zero.symm
        committedRotation := hbody.committedRotation
        committed := hbody.committed }
  have hupdate := hstart.update h0
    (hsound.versors.backAtStart (Versor.ofRotation_square hr))
    (hsound'.versors.backAtStart (Versor.ofRotation_square hr')) ⟨hbound.stage, hbound.nodes⟩ trial
  rw [reset_of_bound hbound.bound? (Versor.ofMatrix_eq hr),
    reset_of_bound (h.isBound hbound).bound? (Versor.ofMatrix_eq hr')]
  exact hupdate.andThen fun u u' hu => hu.commit

/-! ## Attachments -/

/-- What an attachment finds is captured in both systems, or in none. -/
theorem IsDescription.lookForDisplacements (h : IsDescription f t t')
    (trial : Ends (Displacement ℝ)) :
    let u := (t.lookForDisplacements trial).1
    let u' := (t'.lookForDisplacements (trial.map f.displacement)).1
    u'.config = f.configuration u.config ∧ u'.capture = u.capture
      ∧ u'.initial = u.initial.map f.displacement := by
  have hzero (d : Displacement ℝ) : (f.displacement d).IsZero ↔ d.IsZero := by
    simp only [Displacement.IsZero, Vec3.isZero_iff]
    exact and_congr f.vector_eq_zero f.vector_eq_zero
  have hsame : (Displacement.IsZero (trial.map f.displacement).i
      ∧ Displacement.IsZero (trial.map f.displacement).j)
        ↔ Displacement.IsZero trial.i ∧ Displacement.IsZero trial.j :=
    and_congr (hzero _) (hzero _)
  intro u u'
  simp only [u, u', Transformation.lookForDisplacements, h.capture, hsame]
  cases t.capture with
  | unchecked =>
    simp only
    split
    · exact ⟨h.config, rfl, h.initial⟩
    · exact ⟨h.config, rfl, rfl⟩
  | none => exact ⟨h.config, h.capture, h.initial⟩
  | captured => exact ⟨h.config, h.capture, h.initial⟩

/-- **What an attachment sets up** in the second system. -/
theorem IsDescription.attached (h : IsDescription f t t') (nodes : Ends ν)
    (trial : Ends (Displacement ℝ)) {r : Reference ℝ} {position position' : Ends (Vec3 ℝ)}
    (hr : r.IsSound tol position) (hr' : (f.reference r).IsSound tol position') :
    IsDescription f (t.attached nodes trial r)
      (t'.attached nodes (trial.map f.displacement) (f.reference r)) := by
  obtain ⟨hconfig, hcapture, hinitial⟩ := h.lookForDisplacements trial
  have hrotation : (t'.attached nodes (trial.map f.displacement) (f.reference r)).nodalRotation
      = (t.attached nodes trial r).nodalRotation.map (f.rotation * ·) := by
    rw [attached_nodalRotation _ _ _ hr, attached_nodalRotation _ _ _ hr']
    rfl
  have hcolumn : Ends.both (f.rotation * r.axes).c2 = (Ends.both r.axes.c2).map f.rotation.apply :=
    Ends.ext (Mat3.mul_c2 _ _) (Mat3.mul_c2 _ _)
  have htriad : Triad.between (.both (f.rotation * r.axes).c2) (f.vector r.chord)
      = (Triad.between (.both r.axes.c2) r.chord).turn f.rotation := by
    rw [hcolumn]
    exact Triad.between_turn f.isRotation
  exact ⟨hconfig, rfl, rfl, hcapture, hinitial, fun _ =>
    { turned := ⟨rfl, hrotation, rfl, htriad, rfl, rfl⟩
      reference := rfl
      seen := Ends.ext f.vector_zero.symm f.vector_zero.symm
      committedRotation := hrotation
      committed := rfl }⟩

/-- **An attachment** in the second system. -/
theorem IsDescription.attach (h0 : 0 ≤ tol.parallel) (h : IsDescription f t t')
    (nodes : List (Option (ν × Node ℝ))) : IsOutcomeImage f (t.attach tol nodes)
      (t'.attach tol (nodes.map (Option.map fun n => (n.1, f.node n.2)))) := by
  by_cases hpair : ∃ m n, nodes = [some m, some n]
  · obtain ⟨⟨i, ni⟩, ⟨j, nj⟩, rfl⟩ := hpair
    have himage := f.referenceOf_image tol t.config ⟨ni.position, nj.position⟩
    rw [← h.config] at himage
    rcases himage.cases with ⟨r, href, href'⟩ | ⟨e, e', href, href', he⟩
    · obtain ⟨hresult, hstate⟩ := attach_eq (i := i) (j := j) h0 href
      have href'' : referenceOf tol t'.config ⟨(f.node ni).position, (f.node nj).position⟩
          = .ok (f.reference r) := href'
      obtain ⟨hresult', hstate'⟩ := attach_eq (i := i) (j := j) h0 href''
      have hattached := h.attached ⟨i, j⟩ ⟨ni.trial, nj.trial⟩ (referenceOf_eq_ok h0 href)
        (referenceOf_eq_ok h0 href')
      refine ⟨?_, ?_⟩
      · rw [hstate]
        change IsDescription f _ (t'.attach tol [some (i, f.node ni), some (j, f.node nj)]).state
        rw [hstate']
        exact hattached
      · rw [hresult]
        change IsImage id _ (t'.attach tol [some (i, f.node ni), some (j, f.node nj)]).result
        rw [hresult']
        rfl
    · have heq : t.attach tol [some (i, ni), some (j, nj)] = .fail t e := by
        unfold Transformation.attach
        simp only [href]
      have heq' : t'.attach tol [some (i, f.node ni), some (j, f.node nj)] = .fail t' e' := by
        unfold Transformation.attach
        have hposition : (⟨(f.node ni).position, (f.node nj).position⟩ : Ends (Vec3 ℝ))
            = Ends.map f.point ⟨ni.position, nj.position⟩ := rfl
        simp only [hposition, href']
      rw [heq]
      change IsOutcomeImage f _ (t'.attach tol [some (i, f.node ni), some (j, f.node nj)])
      rw [heq']
      exact ⟨h, he⟩
  · have hnot (m n) : nodes ≠ [some m, some n] := fun heq => hpair ⟨m, n, heq⟩
    have hnot' (m n) : nodes.map (Option.map fun n => (n.1, f.node n.2)) ≠ [some m, some n] := by
      intro heq
      simp only [List.map_eq_cons_iff, List.map_eq_nil_iff, Option.map_eq_some_iff] at heq
      obtain ⟨_, _, rfl, ⟨m, rfl, -⟩, _, _, rfl, ⟨n, rfl, -⟩, rfl⟩ := heq
      exact hnot m n rfl
    rw [t.attach_of_not_pair hnot, t'.attach_of_not_pair hnot', h.tag]
    exact h.refused _

/-- **Every operation** does to a description what it does to the element, and is
refused where it is refused there. -/
theorem IsDescription.perform (h0 : 0 ≤ tol.parallel) (h : IsDescription f t t')
    {position position' : Ends (Vec3 ℝ)}
    (hsound : t.stage ≠ .uninitialized → t.IsSound tol position)
    (hsound' : t'.stage ≠ .uninitialized → t'.IsSound tol position') (c : Call ν ℝ) :
    IsOutcomeImage f (c.perform tol t) ((f.call c).perform tol t') := by
  by_cases hattach : ∃ pair, c = .attach pair
  · obtain ⟨pair, rfl⟩ := hattach
    exact h.attach h0 pair
  cases hbound : t.bound? with
  | error e =>
    -- without bound nodes all else is refused in both systems, for the same reason
    have hcall (pair) : f.call c ≠ .attach pair := by
      cases c with
      | attach pair => exact absurd ⟨pair, rfl⟩ hattach
      | _ => exact nofun
    rw [Call.perform_of_unbound hbound fun pair hc => hattach ⟨pair, hc⟩,
      Call.perform_of_unbound (h.bound?.trans hbound) hcall]
    exact h.refused e
  | ok nodes =>
    obtain ⟨hstage, hnodes⟩ := bound?_eq_ok_iff.mp hbound
    have hbound : IsBound t nodes := ⟨hstage, hnodes⟩
    have hsound := hsound hstage
    have hsound' := hsound' (h.isBound hbound).stage
    cases c with
    | attach pair => exact absurd ⟨pair, rfl⟩ hattach
    | update trial => exact h.update h0 hsound.versors hsound'.versors hbound trial
    | commit => exact h.commit
    | revert trial => exact h.revert h0 hsound.versors hsound'.versors hbound trial
    | reset trial => exact h.reset h0 hsound hsound' hbound trial

end Transformation

namespace Session

open ElementMatrix (turning)

variable [SeriesAngle] {ν : Type} {tol : Tolerances ℝ}

/-! ## Runs -/

/-- **A run in the second system** ends with a description of what the run ends with
in the first one. -/
theorem run_isDescription (h0 : 0 ≤ tol.parallel) (f : Coordinates) (config : Configuration ℝ)
    (calls : List (Call ν ℝ)) : Transformation.IsDescription f (run tol config calls).transformation
      (run tol (f.configuration config) (calls.map f.call)).transformation := by
  -- from the end of the list: the last operation is done to a description
  induction calls using List.reverseRecOn with
  | nil =>
    refine ⟨rfl, rfl, rfl, rfl, ?_, fun hstage => absurd rfl hstage⟩
    refine Slots.ext_slots ?_ ?_ ?_ ?_ <;> exact f.vector_zero.symm
  | append_singleton calls c ih =>
    rw [List.map_append, List.map_singleton, run_append, run_append]
    exact (ih.perform h0 (run_consistent h0 config calls).sound
      (run_consistent h0 (f.configuration config) (calls.map f.call)).sound c).state

/-- **The projections** of a current element in the second system, between the block
diagonal of the rotation and its transpose. -/
theorem projection_image {f : Coordinates} {t t' : Transformation ν ℝ}
    (h : Transformation.IsBodyImage f t t') (htag : t'.tag = t.tag)
    {d d' : Ends (Displacement ℝ)} (hcurrent : t.IsCurrent tol d) (hcurrent' : t'.IsCurrent tol d')
    (kl : ElementMatrix ℝ) (pl : ElementVector ℝ) :
    ∃ p K notices, t.pushForce pl = .ok p ∧ t.pushStiffness tol kl pl = .ok (K, notices)
      ∧ t'.pushForce pl = .ok (ElementMatrix.apply (turning f.rotation) p)
      ∧ t'.pushStiffness tol kl pl = .ok (ElementMatrix.mul (ElementMatrix.mul
        (turning f.rotation) K) (turning f.rotation).transpose, notices) := by
  have hT : t.tangent? = .ok (t.tangentMap tol) := hcurrent.tangent
  have hT' : t'.tangent?
      = .ok (ElementMatrix.mul (t.tangentMap tol) (turning f.rotation).transpose) := by
    rw [hcurrent'.tangent, ← h.turned.tangentMap f.isRotation]
    rfl
  refine ⟨_, _, _, by rw [Transformation.pushForce, hT]; rfl,
    by rw [Transformation.pushStiffness, hT]; rfl, ?_, ?_⟩
  · rw [Transformation.pushForce, hT']
    exact congrArg Except.ok (Transformation.transpose_apply_turn _ _ _)
  · have hnotices : Transformation.rightAngleNotices tol t'.tag t'.deformation
        = Transformation.rightAngleNotices tol t.tag t.deformation := by
      rw [htag]
      exact congrArg (Transformation.rightAngleNotices tol t.tag) h.turned.deformation
    rw [Transformation.pushStiffness, hT']
    exact congrArg Except.ok (Prod.ext (h.turned.stiffness f.isRotation _ kl pl) hnotices)

/-- **No system of coordinates is distinguished.** Let an element and its nodes be
described in another system: points rotated and shifted, the reference vector and the
displacements rotated in both parts, the offsets rotated unless they are components
along the local axes. Then after any sequence of operations, some of which may fail:
every further operation is accepted in both systems or refused in both for the same
reason, both are in the same stage, and past the stage `uninitialized` lengths and local
deformations are the same, and the reference axes, the triad and the nodal rotations
are those of the first system, rotated. For any local data the projections are both
refused for the same reason, or forces and stiffness in the second system are those in
the first one between the block diagonal of the rotation and its transpose. -/
theorem frame_indifference (h0 : 0 ≤ tol.parallel) (f : Coordinates) (config : Configuration ℝ)
    (calls : List (Call ν ℝ)) :
    let t := (run tol config calls).transformation
    let t' := (run tol (f.configuration config) (calls.map f.call)).transformation
    let B := turning f.rotation
    (∀ c : Call ν ℝ, IsImage id (c.perform tol t).result ((f.call c).perform tol t').result)
      ∧ t'.stage = t.stage
      ∧ (t.stage ≠ .uninitialized → t'.reference.length = t.reference.length
        ∧ t'.deformedLength = t.deformedLength ∧ t'.deformation = t.deformation
        ∧ t'.reference.axes = f.rotation * t.reference.axes ∧ t'.rotation = f.rotation * t.rotation
        ∧ t'.nodalRotation = t.nodalRotation.map (f.rotation * ·))
      ∧ ∀ kl pl,
        (∃ p K notices, t.pushForce pl = .ok p ∧ t.pushStiffness tol kl pl = .ok (K, notices)
          ∧ t'.pushForce pl = .ok (ElementMatrix.apply B p)
          ∧ t'.pushStiffness tol kl pl
            = .ok (ElementMatrix.mul (ElementMatrix.mul B K) B.transpose, notices))
        ∨ ∃ e, t.pushForce pl = .error e ∧ t.pushStiffness tol kl pl = .error e
          ∧ t'.pushForce pl = .error e ∧ t'.pushStiffness tol kl pl = .error e := by
  intro t t' B
  have hrun := run_consistent h0 config calls
  have hrun' := run_consistent h0 (f.configuration config) (calls.map f.call)
  have h : Transformation.IsDescription f t t' := run_isDescription h0 f config calls
  refine ⟨fun c => (h.perform h0 hrun.sound hrun'.sound c).result, h.stage, fun hstage => ?_,
    fun kl pl => ?_⟩
  · have hbody := h.body hstage
    exact ⟨by rw [hbody.reference]; rfl, hbody.turned.length, hbody.turned.deformation,
      by rw [hbody.reference]; rfl, congrArg Triad.axes hbody.turned.triad, hbody.nodalRotation⟩
  · by_cases hcurrent : t.stage = .current
    · have hstage : t.stage ≠ .uninitialized := by rw [hcurrent]; exact nofun
      exact .inl (projection_image (h.body hstage) h.tag (hrun.current hcurrent)
        (hrun'.current (h.stage.trans hcurrent)) kl pl)
    · have hcurrent' : t'.stage ≠ .current := by rwa [h.stage]
      have hreason : t'.outOfStage = t.outOfStage := by
        rw [Transformation.outOfStage, h.stage, h.tag, Transformation.outOfStage]
      obtain ⟨-, hforce, hstiffness⟩ := Transformation.query_of_not_current hcurrent
      obtain ⟨-, hforce', hstiffness'⟩ := Transformation.query_of_not_current hcurrent'
      exact .inr ⟨_, hforce pl, hstiffness tol kl pl, hreason ▸ hforce' pl,
        hreason ▸ hstiffness' tol kl pl⟩

omit [SeriesAngle] in
/-- The twisted element, described in coordinates that are turned about the third axis
and shifted. -/
theorem frame_indifference_twisted :
    letI : SeriesAngle := .exact
    let f : Coordinates :=
      ⟨(Versor.turn ⟨0, 0, 1⟩).toMatrix, ⟨1, 2, 3⟩, Versor.isRotation_turn _⟩
    let calls : List (Call Bool ℝ) :=
      [.attach [some (false, .ofPosition .null 0), some (true, .ofPosition .null ⟨1, 0, 0⟩)],
        .update (pairTrial (Transformation.twisted 1))]
    let t' := (run .standard (f.configuration straight) (calls.map f.call)).transformation
    t'.stage = .current ∧ t'.deformation = Transformation.twisted 1
      ∧ IsImage id
        (Call.commit.perform .standard (run .standard straight calls).transformation).result
        (Call.commit.perform .standard t').result := by
  let _ : SeriesAngle := .exact
  intro f calls t'
  have h0 := Tolerances.standard_admissible_exact.parallel_nonneg
  obtain ⟨hstage, -, -, hdeformation⟩ := twistedSession_current le_rfl one_pos h0
    Tolerances.standard_parallel_lt_cos
  obtain ⟨hresult, hstage', hbody, -⟩ := frame_indifference h0 f straight calls
  obtain ⟨-, -, hdeformation', -⟩ := hbody (by
    change (twistedSession .standard).transformation.stage ≠ _
    rw [hstage]
    exact nofun)
  exact ⟨hstage'.trans hstage, hdeformation'.trans hdeformation, hresult .commit⟩

end Session

end Corotation
