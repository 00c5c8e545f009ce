import Corotation.Proofs.Element.Pairing
import Corotation.Proofs.Element.Reversal
import Corotation.Proofs.Rotation.Logarithm
import Corotation.Proofs.Transformation.Offsets
import Corotation.Proofs.Transformation.Undeformed
/-!
# A transformation with its nodes exchanged

Two transformations are bound to the same two nodes, the second one in the opposite
order. Its reference axes are those of the first after half a turn (`referenceOf_swap`),
so all of its nodal orientations come after the same half turn (`IsReversed`). Updates,
commits and reverts keep this (`IsReversal.update` and so on): they turn the nodes from
the left, and the half turn stands on the right.

At every evaluation the second triad is the reversed one, and the local deformations are
those of the first element in the other order and axes, as long as the local rotations
stay below half a turn (`IsReversed.localDeformation`): beyond it the rotation vector
could take either sense. So the second element maps its local forces and stiffness to the
same nodal ones, in the other order (`IsMirrored.nodalForce`, `IsMirrored.nodalStiffness`).
-/

namespace Corotation

open Mat3 (halfTurn)

/-! ## The reference geometry -/

/-- The reference geometry from the other end. -/
noncomputable def Reference.reverse [SeriesAngle] (r : Reference ℝ) : Reference ℝ :=
  ⟨r.length, -r.chord, r.axes * halfTurn, r.offset.swap⟩

namespace Transformation

variable [SeriesAngle] {ν : Type} {tol : Tolerances ℝ} {t t' : Transformation ν ℝ}
variable {d : Ends (Displacement ℝ)} {nodes : Ends ν}

section Geometry

variable {config : Configuration ℝ} {position : Ends (Vec3 ℝ)} {r : Reference ℝ}

/-- The reference geometry of an element without offsets. -/
theorem referenceOf_of_no_offsets (hoffsets : config.offsets = none)
    (h : referenceOf tol config position = .ok r) :
    let dX := position.j - position.i
    let e1 := Triad.direction dX
    let e2 := Triad.direction (config.vecxz.cross e1)
    0 < dX.norm ∧ tol.parallel * max config.vecxz.norm 1 < (config.vecxz.cross e1).norm
      ∧ r = ⟨dX.norm, dX, .ofColumns e1 e2 (e1.cross e2), .both 0⟩ := by
  intro dX e1 e2
  obtain ⟨offset, hoffset, h⟩ := exists_of_bind_eq_ok h
  obtain ⟨c, hc, h⟩ := exists_of_bind_eq_ok h
  obtain ⟨axes, haxes, h⟩ := exists_of_bind_eq_ok h
  cases h
  rw [hoffsets] at hoffset
  cases hoffset
  obtain ⟨hvector, hlength, hpos⟩ := chord_eq_ok hc
  have hchord : c.vector = dX := hvector.trans (by
    change position.j + 0 - (position.i + 0) = _
    rw [add_zero, add_zero])
  rw [hchord] at hlength hpos haxes ⊢
  obtain ⟨hacross, haxes⟩ := orientation_eq_ok haxes
  exact ⟨hpos, hacross, by rw [hlength, haxes]; rfl⟩

/-- **From the other end** an element without offsets has the reversed reference
geometry. -/
theorem referenceOf_swap (hoffsets : config.offsets = none)
    (h : referenceOf tol config position = .ok r) :
    referenceOf tol config position.swap = .ok r.reverse := by
  have hneg : position.i - position.j = -(position.j - position.i) := (neg_sub _ _).symm
  have hcross : config.vecxz.cross (Triad.direction (position.i - position.j))
      = -config.vecxz.cross (Triad.direction (position.j - position.i)) := by
    rw [hneg, Triad.direction_neg, Vec3.cross_neg]
  obtain ⟨hpos, hacross, rfl⟩ := referenceOf_of_no_offsets hoffsets h
  have hpos' : 0 < (position.swap.j - position.swap.i).norm := by
    rw [Ends.swap_i, Ends.swap_j, hneg, Vec3.norm_neg]
    exact hpos
  have hacross' : tol.parallel * max config.vecxz.norm 1
      < (config.vecxz.cross (Triad.direction (position.swap.j - position.swap.i))).norm := by
    rw [Ends.swap_i, Ends.swap_j, hcross, Vec3.norm_neg]
    exact hacross
  obtain ⟨r', href, -⟩ := exists_referenceOf hoffsets hpos' hacross'
  obtain ⟨-, -, rfl⟩ := referenceOf_of_no_offsets hoffsets href
  rw [href, Reference.reverse, Mat3.ofColumns_mul_halfTurn]
  simp only [Ends.swap_i, Ends.swap_j, Ends.swap_both, hneg, Triad.direction_neg,
    Vec3.norm_neg, Vec3.neg_cross, Vec3.cross_neg, neg_neg]

end Geometry

/-! ## Reversed transformations -/

/-- The second transformation is bound to the nodes of the first in the opposite order,
and every orientation comes after half a turn. -/
structure IsReversed (t t' : Transformation ν ℝ) : Prop where
  nodes : t'.nodes = t.nodes.map Ends.swap
  initial : t'.initial = t.initial.swap
  reference : t'.reference = t.reference.reverse
  seen : t'.seen = t.seen.swap
  nodalRotation : t'.nodalRotation = (t.nodalRotation.map (· * halfTurn)).swap
  committedRotation : t'.committedVersor.map Versor.toMatrix
    = ((t.committedVersor.map Versor.toMatrix).map (· * halfTurn)).swap

/-- An attachment from the other end. Both nodes start at the reference orientation, and
the committed orientations with them. -/
theorem attached_isReversed {config : Configuration ℝ} {position : Ends (Vec3 ℝ)}
    {r : Reference ℝ} (hr : r.IsSound tol position)
    (hr' : r.reverse.IsSound tol position.swap) (nodes : Ends ν) (trial : Ends (Displacement ℝ)) :
    IsReversed ((ofConfiguration config).attached nodes trial r)
      ((ofConfiguration config).attached nodes.swap trial.swap r.reverse) := by
  have hrot : ((ofConfiguration config).attached nodes.swap trial.swap r.reverse).nodalRotation
      = (((ofConfiguration config).attached nodes trial r).nodalRotation.map
        (· * halfTurn)).swap := by
    rw [attached_nodalRotation _ _ _ hr, attached_nodalRotation _ _ _ hr']
    rfl
  exact ⟨rfl, by rw [Session.attached_initial, Session.attached_initial], rfl, rfl, hrot, hrot⟩

/-! ## Evaluations -/

section Evaluations

variable (h : IsReversed t t') (d : Ends (Displacement ℝ))

include h

theorem IsReversed.displacement : t'.displacement d.swap = (t.displacement d).swap := by
  rw [Transformation.displacement, h.initial]
  rfl

/-- The half turns cancel from the arms. -/
theorem IsReversed.deformedArm : t'.deformedArm = t.deformedArm.swap := by
  have hcancel (R m : Mat3 ℝ) (o : Vec3 ℝ) :
      (R * halfTurn * (m * halfTurn).transpose).apply o = (R * m.transpose).apply o := by
    rw [Mat3.transpose_mul, mul_assoc, ← mul_assoc halfTurn,
      Mat3.isRotation_halfTurn.mul_transpose, one_mul]
  rw [Transformation.deformedArm, armsOf, h.nodalRotation, h.reference]
  exact Ends.ext (hcancel _ _ _) (hcancel _ _ _)

theorem IsReversed.deformedChord : t'.deformedChord d.swap = -t.deformedChord d := by
  rw [Transformation.deformedChord, h.deformedArm, chordOf, h.reference,
    Transformation.deformedChord, chordOf]
  simp only [Reference.reverse, Ends.swap_i, Ends.swap_j]
  abel

theorem IsReversed.nodalAxes : t'.nodalAxes = (t.nodalAxes.map (- ·)).swap := by
  rw [Transformation.nodalAxes, h.nodalRotation]
  exact Ends.ext (Mat3.mul_halfTurn_c2 _) (Mat3.mul_halfTurn_c2 _)

theorem IsReversed.determines (hdet : Determines tol t d) : Determines tol t' d.swap := by
  rw [Determines, h.nodalAxes, h.deformedChord]
  exact hdet.reverse

theorem IsReversed.deformedTriad : t'.deformedTriad d.swap = (t.deformedTriad d).reverse := by
  rw [Transformation.deformedTriad, h.nodalAxes, h.deformedChord]
  exact Triad.between_reverse

/-- **The local deformations** from the other end, below half a turn. -/
theorem IsReversed.localDeformation (h0 : 0 ≤ tol.parallel) (hangle : 0 ≤ SeriesAngle.angle)
    (hseries : SeriesAngle.angle < Real.pi) (hversors : HasVersors t) (hdet : Determines tol t d)
    (hi : (t.localDeformation d).i.rot.norm < Real.pi)
    (hj : (t.localDeformation d).j.rot.norm < Real.pi) :
    t'.localDeformation d.swap = (t.localDeformation d).mirror := by
  have haxes : (t.deformedTriad d).axes.IsRotation := (Triad.isFrame_between h0 hdet).isRotation
  obtain ⟨hRi, hRj⟩ := hversors.isRotation
  have hrotation {R : Mat3 ℝ} (hR : R.IsRotation)
      (hlt : (Versor.logarithm ((t.deformedTriad d).axes.transpose * R)).norm < Real.pi) :
      Versor.logarithm (((t.deformedTriad d).axes * halfTurn).transpose * (R * halfTurn))
        = halfTurn.apply (Versor.logarithm ((t.deformedTriad d).axes.transpose * R)) := by
    have hrelative := haxes.transpose.mul hR
    rw [← Versor.logarithm_conjugate Mat3.isRotation_halfTurn hrelative
      (Versor.principal_pos_of_norm_lt hangle hseries hrelative hlt), Mat3.transpose_mul,
      Mat3.halfTurn_transpose]
    simp only [mul_assoc]
  rw [Transformation.localDeformation, h.deformedTriad, h.deformedChord, relativeRotation,
    h.nodalRotation, h.reference, Vec3.norm_neg]
  exact Slots.ext_slots rfl (hrotation hRj hj) rfl (hrotation hRi hi)

/-- **Turns** by the increments of the exchanged nodes. -/
theorem IsReversed.moved (rot : Ends (Vec3 ℝ)) : IsReversed (t.moved rot) (t'.moved rot.swap) where
  nodes := h.nodes
  initial := h.initial
  reference := h.reference
  seen := rfl
  nodalRotation := by
    rw [moved_nodalRotation, moved_nodalRotation, h.nodalRotation, h.seen]
    exact Ends.ext (mul_assoc _ _ _).symm (mul_assoc _ _ _).symm
  committedRotation := h.committedRotation

end Evaluations

/-! ## Operations -/

/-- A transformation between two nodes that was brought up to the displacements `d`. -/
structure IsReady (tol : Tolerances ℝ) (t : Transformation ν ℝ) (nodes : Ends ν)
    (d : Ends (Displacement ℝ)) : Prop where
  bound : IsBound t nodes
  versors : HasVersors t
  current : IsCurrent tol t d

/-- The second transformation is the first one from the other end, and both were brought
up to the same displacements. -/
structure IsReversal (tol : Tolerances ℝ) (t t' : Transformation ν ℝ) : Prop where
  reversed : IsReversed t t'
  ready : ∃ nodes d, IsReady tol t nodes d ∧ IsReady tol t' nodes.swap d.swap

variable {trial : ν → Displacement ℝ}

/-- What a successful update leaves. -/
theorem update_of_ok (h0 : 0 ≤ tol.parallel) (hversors : HasVersors t) (hbound : IsBound t nodes)
    (hok : (t.update tol trial).result = .ok ()) :
    let d := t.displacement (nodes.map trial)
    Determines tol (t.moved (d.map Screw.rot)) d
      ∧ t.update tol trial = .ok ((t.moved (d.map Screw.rot)).evaluated d tol) ()
      ∧ IsReady tol ((t.moved (d.map Screw.rot)).evaluated d tol) nodes d := by
  intro d
  rcases update_cases h0 hversors hbound trial with ⟨hdet, heq⟩ | ⟨-, e, heq⟩
  · exact ⟨hdet, heq, ⟨nofun, hbound.nodes⟩, (hversors.moved _).evaluated _,
      isCurrent_evaluated rfl hdet⟩
  · rw [heq] at hok
    cases hok

/-- **An update** that succeeds does so from the other end. -/
theorem IsReversed.update (h0 : 0 ≤ tol.parallel) (h : IsReversed t t') (hversors : HasVersors t)
    (hversors' : HasVersors t') (hbound : IsBound t nodes) (hbound' : IsBound t' nodes.swap)
    (hok : (t.update tol trial).result = .ok ()) : (t'.update tol trial).result = .ok ()
      ∧ IsReversal tol (t.update tol trial).state (t'.update tol trial).state := by
  obtain ⟨hdet, heq, hready⟩ := update_of_ok h0 hversors hbound hok
  set d := t.displacement (nodes.map trial)
  have hd : t'.displacement (nodes.swap.map trial) = d.swap := by
    rw [Ends.map_swap, h.displacement]
  have hmoved := h.moved (d.map Screw.rot)
  -- the chord only changes its sign, so the mean axis is as far from it as before
  have heq' := update_of_determines h0 hversors' hbound' hd (hmoved.determines d hdet)
  obtain ⟨-, -, hready'⟩ := update_of_ok h0 hversors' hbound' (congrArg Outcome.result heq')
  rw [hd] at hready'
  rw [heq, heq']
  exact ⟨rfl, ⟨hmoved.nodes, hmoved.initial, hmoved.reference, hmoved.seen, hmoved.nodalRotation,
    hmoved.committedRotation⟩, nodes, d, hready, hready'⟩

theorem IsReversal.update (h0 : 0 ≤ tol.parallel) (h : IsReversal tol t t')
    (hok : (t.update tol trial).result = .ok ()) : (t'.update tol trial).result = .ok ()
      ∧ IsReversal tol (t.update tol trial).state (t'.update tol trial).state := by
  obtain ⟨nodes, d, hready, hready'⟩ := h.ready
  exact h.reversed.update h0 hready.versors hready'.versors hready.bound hready'.bound hok

theorem IsReady.snapshot (h : IsReady tol t nodes d) : IsReady tol t.snapshot nodes d :=
  ⟨⟨h.bound.stage, h.bound.nodes⟩, h.versors.snapshot, h.current.snapshot⟩

/-- **A commit** from the other end. -/
theorem IsReversal.commit (h : IsReversal tol t t') :
    t'.commit.result = .ok () ∧ IsReversal tol t.commit.state t'.commit.state := by
  obtain ⟨nodes, d, hready, hready'⟩ := h.ready
  have hreversed := h.reversed
  rw [commit_of_bound hready.bound.bound?, commit_of_bound hready'.bound.bound?]
  exact ⟨rfl, ⟨hreversed.nodes, hreversed.initial, hreversed.reference, hreversed.seen,
    hreversed.nodalRotation, hreversed.nodalRotation⟩, nodes, d, hready.snapshot, hready'.snapshot⟩

/-- **A revert** that succeeds does so from the other end. -/
theorem IsReversal.revert (h0 : 0 ≤ tol.parallel) (h : IsReversal tol t t')
    (hok : (t.revert tol trial).result = .ok ()) : (t'.revert tol trial).result = .ok ()
      ∧ IsReversal tol (t.revert tol trial).state (t'.revert tol trial).state := by
  obtain ⟨nodes, d, hready, hready'⟩ := h.ready
  have hreversed := h.reversed
  have hrestored :
      IsReversed (t.restore (nodes.map trial)) (t'.restore (nodes.swap.map trial)) := by
    refine ⟨hreversed.nodes, hreversed.initial, hreversed.reference, ?_,
      hreversed.committedRotation, hreversed.committedRotation⟩
    change (t'.displacement _).map Screw.rot = _
    rw [Ends.map_swap, hreversed.displacement]
    rfl
  rw [revert_of_bound hready.bound.bound?] at hok ⊢
  rw [revert_of_bound hready'.bound.bound?]
  exact hrestored.update h0 (hready.versors.restore _) (hready'.versors.restore _)
    ⟨hready.bound.stage, hready.bound.nodes⟩ ⟨hready'.bound.stage, hready'.bound.nodes⟩ hok

/-- What is done to both of them, at the same displacements of the nodes, keeps
transformations in order and reversals reversed. -/
structure IsEvenhanded (tol : Tolerances ℝ)
    (f : Transformation ν ℝ → Outcome ℝ (Transformation ν ℝ) Unit) : Prop where
  ready : ∀ {t nodes d}, IsReady tol t nodes d → (f t).result = .ok () →
    ∃ d', IsReady tol (f t).state nodes d'
  reversal : ∀ {t t'}, IsReversal tol t t' → (f t).result = .ok () →
    (f t').result = .ok () ∧ IsReversal tol (f t).state (f t').state

theorem isEvenhanded_update (h0 : 0 ≤ tol.parallel) (trial : ν → Displacement ℝ) :
    IsEvenhanded tol fun t => t.update tol trial where
  ready h hok := by
    obtain ⟨-, heq, hready⟩ := update_of_ok h0 h.versors h.bound hok
    rw [heq]
    exact ⟨_, hready⟩
  reversal h hok := h.update h0 hok

theorem isEvenhanded_commit : IsEvenhanded tol (commit : Transformation ν ℝ → _) where
  ready h _ := by
    rw [commit_of_bound h.bound.bound?]
    exact ⟨_, h.snapshot⟩
  reversal h _ := h.commit

theorem isEvenhanded_revert (h0 : 0 ≤ tol.parallel) (trial : ν → Displacement ℝ) :
    IsEvenhanded tol fun t => t.revert tol trial where
  ready := by
    intro t nodes d h hok
    rw [revert_of_bound h.bound.bound?] at hok ⊢
    obtain ⟨-, heq, hready⟩ :=
      update_of_ok h0 (h.versors.restore _) ⟨h.bound.stage, h.bound.nodes⟩ hok
    rw [heq]
    exact ⟨_, hready⟩
  reversal h hok := h.revert h0 hok

/-! ## Projections -/

section Projections

/-- What is cached in the second transformation is that of the first from the other
end. -/
structure IsMirrored (t t' : Transformation ν ℝ) : Prop where
  arm : t'.arm = t.arm.swap
  triad : t'.triad = t.triad.reverse
  deformation : t'.deformation = t.deformation.mirror

theorem link_swap (arm : Ends (Vec3 ℝ)) (x : ElementVector ℝ) :
    ElementMatrix.apply (link arm.swap) x.swap = (ElementMatrix.apply (link arm) x).swap := by
  rw [link_apply, link_apply]
  rfl

theorem link_transpose_swap (arm : Ends (Vec3 ℝ)) (p : ElementVector ℝ) :
    ElementMatrix.apply (link arm.swap).transpose p.swap
      = (ElementMatrix.apply (link arm).transpose p).swap := by
  rw [link_transpose_apply, link_transpose_apply]
  rfl

theorem armStiffness_swap (arm : Ends (Vec3 ℝ)) (force x : ElementVector ℝ) :
    ElementMatrix.apply (armStiffness arm.swap force.swap) x.swap
      = (ElementMatrix.apply (armStiffness arm force) x).swap := by
  rw [armStiffness_apply, armStiffness_apply]
  rfl

/-- **The tangent** from the other end. -/
theorem IsMirrored.tangentMap (h : IsMirrored t t') (x : ElementVector ℝ) :
    ElementMatrix.apply (t'.tangentMap tol) x.swap
      = (ElementMatrix.apply (t.tangentMap tol) x).mirror := by
  rw [Transformation.tangentMap, Transformation.tangentMap, ElementMatrix.mul_apply,
    ElementMatrix.mul_apply, h.arm, h.triad, h.deformation, link_swap,
    Triad.deformationTangent_reverse]

variable {T T' : ElementMatrix ℝ}
variable (hT : ∀ x : ElementVector ℝ,
  ElementMatrix.apply T' x.swap = ElementVector.mirror (ElementMatrix.apply T x))

include hT

/-- **The transpose** takes the local forces of the reversed element to the nodal forces
of the element, in the other order. -/
theorem transpose_apply_mirror (p : ElementVector ℝ) : ElementMatrix.apply T'.transpose p.mirror
    = (ElementMatrix.apply T.transpose p).swap := by
  refine ElementVector.ext_inner fun x => ?_
  have hx : (ElementMatrix.apply T'.transpose p.mirror).inner x
      = ElementVector.inner (ElementMatrix.apply T.transpose p).swap x := by
    calc (ElementMatrix.apply T'.transpose p.mirror).inner x
        = p.mirror.inner (ElementMatrix.apply T' x) := (ElementMatrix.inner_apply _ _ _).symm
      _ = p.mirror.inner (ElementMatrix.apply T x.swap).mirror := by rw [← hT, Ends.swap_swap]
      _ = p.inner (ElementMatrix.apply T x.swap) := ElementVector.mirror_inner _ _
      _ = (ElementMatrix.apply T.transpose p).inner x.swap := ElementMatrix.inner_apply _ _ _
      _ = ElementVector.inner (ElementMatrix.apply T.transpose p).swap x :=
        (ElementVector.swap_inner _ x.swap).symm
  rw [ElementVector.inner_comm, hx, ElementVector.inner_comm]

theorem congruence_mirror {k k' : ElementMatrix ℝ}
    (hk : ∀ u : ElementVector ℝ, ElementMatrix.apply k' u.mirror = (ElementMatrix.apply k u).mirror)
    (x : ElementVector ℝ) : ElementMatrix.apply (ElementMatrix.congruence T' k') x.swap
      = (ElementMatrix.apply (ElementMatrix.congruence T k) x).swap := by
  rw [ElementMatrix.congruence_apply, ElementMatrix.congruence_apply, hT, hk,
    transpose_apply_mirror hT]

/-- **The term with the tangents of the local rotations**: moments and rotations change
their signs together. -/
theorem tangentTerm_mirror (p ul x : ElementVector ℝ) :
    ElementMatrix.apply (tangentTerm T' p.mirror ul.mirror) x.swap
      = (ElementMatrix.apply (tangentTerm T p ul) x).swap := by
  rw [tangentTerm_eq, tangentTerm_eq]
  refine congruence_mirror hT (fun u => ?_) x
  rw [ElementMatrix.diagonal_apply, ElementMatrix.diagonal_apply]
  refine Slots.ext_slots ?_ ?_ ?_ ?_ <;>
  · ext <;> simp [tangentWeights_eq, ElementVector.mirror]

end Projections

/-- **The nodal forces** from the other end. -/
theorem IsMirrored.nodalForce (h : IsMirrored t t') (p : ElementVector ℝ) :
    t'.nodalForce tol p.mirror = (t.nodalForce tol p).swap :=
  transpose_apply_mirror h.tangentMap p

/-- **The nodal stiffness** from the other end, for a local stiffness that does not tell
the ends apart. -/
theorem IsMirrored.nodalStiffness (h : IsMirrored t t') {k : ElementMatrix ℝ}
    (hk : ∀ u : ElementVector ℝ, ElementMatrix.apply k u.mirror = (ElementMatrix.apply k u).mirror)
    (p : ElementVector ℝ) :
    t'.nodalStiffness tol k p.mirror = ElementMatrix.exchange (t.nodalStiffness tol k p) := by
  have hT : ∀ x : ElementVector ℝ, ElementMatrix.apply (t'.tangentMap tol) x.swap
      = ElementVector.mirror (ElementMatrix.apply (t.tangentMap tol) x) := h.tangentMap
  refine ElementMatrix.eq_exchange fun x => ?_
  have hmaterial := congruence_mirror hT hk x
  have hgeometric : ElementMatrix.apply (ElementMatrix.congruence (link t'.arm)
      (t'.triad.geometricStiffness tol p.mirror t'.deformation)) x.swap
        = (ElementMatrix.apply (ElementMatrix.congruence (link t.arm)
          (t.triad.geometricStiffness tol p t.deformation)) x).swap := by
    rw [ElementMatrix.congruence_apply, ElementMatrix.congruence_apply, h.arm, h.triad,
      h.deformation, link_swap, Triad.geometricStiffness_reverse, link_transpose_swap]
  have harms : ElementMatrix.apply (armStiffness t'.arm
      (ElementMatrix.apply (t'.tangentMap tol).transpose p.mirror)) x.swap
        = (ElementMatrix.apply (armStiffness t.arm
          (ElementMatrix.apply (t.tangentMap tol).transpose p)) x).swap := by
    rw [transpose_apply_mirror hT, h.arm, armStiffness_swap]
  have hturning :
      ElementMatrix.apply (tangentTerm (t'.tangentMap tol) p.mirror t'.deformation) x.swap
        = (ElementMatrix.apply (tangentTerm (t.tangentMap tol) p t.deformation) x).swap := by
    rw [h.deformation, tangentTerm_mirror hT]
  simp only [Transformation.nodalStiffness, consistentStiffness, ElementMatrix.add_apply,
    hmaterial, hgeometric, harms, hturning, Ends.swap_add]

/-- **Below half a turn** all that is cached is mirrored. -/
theorem IsReversal.isMirrored (h0 : 0 ≤ tol.parallel) (hangle : 0 ≤ SeriesAngle.angle)
    (hseries : SeriesAngle.angle < Real.pi) (h : IsReversal tol t t')
    (hi : t.deformation.i.rot.norm < Real.pi) (hj : t.deformation.j.rot.norm < Real.pi) :
    IsMirrored t t' := by
  obtain ⟨nodes, d, hready, hready'⟩ := h.ready
  have hcurrent := hready.current
  have hcurrent' := hready'.current
  -- at half a turn the logarithm chooses one of two opposite vectors, and need not choose
  -- the same from the other end
  rw [hcurrent.deformation] at hi hj
  refine ⟨?_, ?_, ?_⟩
  · rw [hcurrent'.arm, hcurrent.arm, h.reversed.deformedArm]
  · rw [hcurrent'.triad, hcurrent.triad, h.reversed.deformedTriad]
  · rw [hcurrent'.deformation, hcurrent.deformation]
    exact h.reversed.localDeformation d h0 hangle hseries hready.versors hcurrent.determines hi hj

end Transformation

end Corotation
