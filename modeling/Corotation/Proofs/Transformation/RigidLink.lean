import Corotation.Proofs.Element.Pairing
import Corotation.Proofs.Transformation.Currency
import Corotation.Proofs.Transformation.Offsets
/-!
# Rigid offsets

An element with rigid offsets is one without them between its end points, behind a rigid
link to each node. What nodes at the end points would report is the translation of the
node, with what the turn of the arm adds to it (`Transformation.endReport`). The deformed
chord is then the same for both elements, and so is all that an evaluation finds but for
the arms (`IsBare.evaluated`). Every operation keeps this (`IsBare.perform`), whether it
succeeds or not.

The link comes back at the projections only. The tangent of the element with offsets is
that of the other one after the link, so forces come back through its transpose, and the
stiffness is a congruence with it and the stiffness of the turning arms
(`IsBare.projections`).
-/

namespace Corotation

/-- What an element without the offsets is made from. -/
def Configuration.bare {α : Type} (c : Configuration α) : Configuration α :=
  { c with offsets := none }

namespace Transformation

variable [SeriesAngle] {ν ν' : Type} {tol : Tolerances ℝ}
variable {t : Transformation ν ℝ} {t' : Transformation ν' ℝ} {d : Ends (Displacement ℝ)}
variable {nodes : Ends ν} {nodes' : Ends ν'} {o position position' : Ends (Vec3 ℝ)}

/-- What nodes at the end points report where the nodes of an element report `d`. -/
noncomputable def endReport (t : Transformation ν ℝ) (d : Ends (Displacement ℝ)) :
    Ends (Displacement ℝ) :=
  ⟨⟨d.i.lin + t.deformedArm.i - t.reference.offset.i, d.i.rot⟩,
   ⟨d.j.lin + t.deformedArm.j - t.reference.offset.j, d.j.rot⟩⟩

/-- The second element is the first one without its offsets `o`, between its end points. No
displacements were captured for either. -/
structure IsBare (nodes : Ends ν) (nodes' : Ends ν') (o : Ends (Vec3 ℝ))
    (t : Transformation ν ℝ) (t' : Transformation ν' ℝ) : Prop where
  tag : t'.tag = t.tag
  stage : t'.stage = t.stage
  nodes : t.stage ≠ .uninitialized → t.nodes = some nodes ∧ t'.nodes = some nodes'
  offset : t.stage ≠ .uninitialized → t.reference.offset = o
  initial : t.initial = 0 ∧ t'.initial = 0
  reference : t'.reference = { t.reference with offset := .both 0 }
  deformedLength : t'.deformedLength = t.deformedLength
  triad : t'.triad = t.triad
  seen : t'.seen = t.seen
  versor : t'.versor = t.versor
  committedVersor : t'.committedVersor = t.committedVersor
  deformation : t'.deformation = t.deformation
  previous : t'.previous = t.previous
  committed : t'.committed = t.committed

namespace IsBare

variable (h : IsBare nodes nodes' o t t')

include h

/-! ## Evaluations -/

theorem nodalRotation : t'.nodalRotation = t.nodalRotation := by
  rw [Transformation.nodalRotation, h.versor, Transformation.nodalRotation]

theorem deformedArm : t'.deformedArm = .both 0 :=
  deformedArm_of_offset (congrArg Reference.offset h.reference)

/-- **Both elements have the same chord.** -/
theorem deformedChord (d : Ends (Displacement ℝ)) :
    t'.deformedChord (t.endReport d) = t.deformedChord d := by
  rw [Transformation.deformedChord, h.deformedArm, chordOf, h.reference,
    Transformation.deformedChord, chordOf]
  simp only [endReport, Ends.both, add_zero, sub_zero]

theorem nodalAxes : t'.nodalAxes = t.nodalAxes := by
  rw [Transformation.nodalAxes, h.nodalRotation, Transformation.nodalAxes]

theorem determines (d : Ends (Displacement ℝ)) :
    Determines tol t' (t.endReport d) ↔ Determines tol t d := by
  rw [Determines, Determines, h.nodalAxes, h.deformedChord]

theorem deformedTriad (d : Ends (Displacement ℝ)) :
    t'.deformedTriad (t.endReport d) = t.deformedTriad d := by
  rw [Transformation.deformedTriad, h.nodalAxes, h.deformedChord, Transformation.deformedTriad]

theorem localDeformation (d : Ends (Displacement ℝ)) :
    t'.localDeformation (t.endReport d) = t.localDeformation d := by
  rw [Transformation.localDeformation, relativeRotation, h.nodalRotation, h.deformedTriad,
    h.deformedChord, h.reference, Transformation.localDeformation, relativeRotation]

theorem refusal (d : Ends (Displacement ℝ)) :
    t'.refusal (t.endReport d) = t.refusal d := by
  rw [Transformation.refusal, h.deformedChord, h.tag, Transformation.refusal]

/-- **What an evaluation finds** without the offsets. -/
theorem evaluated (hstage : t.stage ≠ .uninitialized) (d : Ends (Displacement ℝ)) :
    IsBare nodes nodes' o (t.evaluated d tol) (t'.evaluated (t.endReport d) tol) where
  tag := h.tag
  stage := rfl
  nodes _ := h.nodes hstage
  offset _ := h.offset hstage
  initial := h.initial
  reference := h.reference
  deformedLength := congrArg Vec3.norm (h.deformedChord d)
  triad := h.deformedTriad d
  seen := h.seen
  versor := h.versor
  committedVersor := h.committedVersor
  deformation := h.localDeformation d
  previous := h.deformation
  committed := h.committed

/-- Turns of the nodes. -/
theorem moved (hstage : t.stage ≠ .uninitialized) (rot : Ends (Vec3 ℝ)) :
    IsBare nodes nodes' o (t.moved rot) (t'.moved rot) where
  tag := h.tag
  stage := rfl
  nodes _ := h.nodes hstage
  offset _ := h.offset hstage
  initial := h.initial
  reference := h.reference
  deformedLength := h.deformedLength
  triad := h.triad
  seen := rfl
  versor := by
    simp only [Transformation.moved, h.versor, h.seen]
  committedVersor := h.committedVersor
  deformation := h.deformation
  previous := h.previous
  committed := h.committed

theorem isBound (hstage : t.stage ≠ .uninitialized) : IsBound t nodes ∧ IsBound t' nodes' :=
  ⟨⟨hstage, (h.nodes hstage).1⟩, ⟨by rwa [h.stage], (h.nodes hstage).2⟩⟩

end IsBare

/-! ## Operations -/

/-- The arms after an update are those of the turned nodes, whether it succeeds or not. -/
theorem endReport_update (h0 : 0 ≤ tol.parallel) (h : HasVersors t) (hbound : IsBound t nodes)
    (trial : ν → Displacement ℝ) (d : Ends (Displacement ℝ)) :
    (t.update tol trial).state.endReport d
      = (t.moved ((t.displacement (nodes.map trial)).map Screw.rot)).endReport d := by
  rcases update_cases h0 h hbound trial with ⟨-, heq⟩ | ⟨-, _, heq⟩
  · rw [heq]
    rfl
  · rw [heq]
    rfl

/-- A commit moves no arms. -/
theorem endReport_commit (t : Transformation ν ℝ) (d : Ends (Displacement ℝ)) :
    t.commit.state.endReport d = t.endReport d := by
  unfold Transformation.commit
  cases t.bound? <;> rfl

theorem endReport_andThen_commit (x : Outcome ℝ (Transformation ν ℝ) Unit)
    (d : Ends (Displacement ℝ)) :
    (x.andThen fun t _ => t.commit).state.endReport d = x.state.endReport d := by
  unfold Outcome.andThen
  split
  · rfl
  · exact endReport_commit _ _

/-- The same happens to the element without offsets: it is left as such, and the
operation succeeds or is refused for the same reason. -/
structure IsBareOutcome (nodes : Ends ν) (nodes' : Ends ν') (o : Ends (Vec3 ℝ))
    (x : Outcome ℝ (Transformation ν ℝ) Unit) (x' : Outcome ℝ (Transformation ν' ℝ) Unit) :
    Prop where
  state : IsBare nodes nodes' o x.state x'.state
  result : x'.result = x.result

namespace IsBare

variable (h : IsBare nodes nodes' o t t')

include h

/-- **An update** at what the end points report. -/
theorem update (h0 : 0 ≤ tol.parallel) (hversors : HasVersors t) (hversors' : HasVersors t')
    (hstage : t.stage ≠ .uninitialized) {trial : ν → Displacement ℝ} {trial' : ν' → Displacement ℝ}
    (htrial : nodes'.map trial' = (t.update tol trial).state.endReport (nodes.map trial)) :
    IsBareOutcome nodes nodes' o (t.update tol trial) (t'.update tol trial') := by
  obtain ⟨hbound, hbound'⟩ := h.isBound hstage
  set d := nodes.map trial
  have hd : t.displacement (nodes.map trial) = d := by
    change d - t.initial = d
    rw [h.initial.1, sub_zero]
  have hmoved : IsBare nodes nodes' o (t.moved (d.map Screw.rot)) (t'.moved (d.map Screw.rot)) :=
    h.moved hstage _
  have hd' : t'.displacement (nodes'.map trial') = (t.moved (d.map Screw.rot)).endReport d := by
    change nodes'.map trial' - t'.initial = _
    rw [h.initial.2, sub_zero, htrial, endReport_update h0 hversors hbound, hd]
  -- the rotational parts are the same, so both elements turn their nodes alike
  have hrot : ((t.moved (d.map Screw.rot)).endReport d).map Screw.rot = d.map Screw.rot := rfl
  by_cases hdet : Determines tol (t.moved (d.map Screw.rot)) d
  · rw [update_of_determines h0 hversors hbound hd hdet,
      update_of_determines h0 hversors' hbound' hd' ((hmoved.determines d).mpr hdet)]
    exact ⟨hmoved.evaluated Stage.noConfusion d, rfl⟩
  · have hdet' : ¬ Determines tol (t'.moved (d.map Screw.rot))
        ((t.moved (d.map Screw.rot)).endReport d) := mt (hmoved.determines d).mp hdet
    rw [update_eq hversors hbound, update_eq hversors' hbound', hd, hd', hrot,
      evaluate_of_not_determines hdet, evaluate_of_not_determines hdet', hmoved.refusal]
    exact ⟨hmoved, rfl⟩

/-- A commit. -/
theorem snapshot : IsBare nodes nodes' o t.snapshot t'.snapshot :=
  { h with committedVersor := h.versor, committed := h.deformation }

theorem commit (hstage : t.stage ≠ .uninitialized) :
    IsBareOutcome nodes nodes' o t.commit t'.commit := by
  obtain ⟨hbound, hbound'⟩ := h.isBound hstage
  rw [commit_of_bound hbound.bound?, commit_of_bound hbound'.bound?]
  exact ⟨h.snapshot, rfl⟩

/-- The committed state restored, at displacements with the same rotational parts. -/
theorem restore {d' : Ends (Displacement ℝ)} (hrot : d'.map Screw.rot = d.map Screw.rot) :
    IsBare nodes nodes' o (t.restore d) (t'.restore d') := by
  have hseen : (t'.displacement d').map Screw.rot = (t.displacement d).map Screw.rot := by
    change (d' - t'.initial).map Screw.rot = (d - t.initial).map Screw.rot
    rw [h.initial.1, h.initial.2, sub_zero, sub_zero, hrot]
  exact { h with
    seen := hseen, versor := h.committedVersor, deformation := h.committed }

/-- **A revert** at what the end points report. -/
theorem revert (h0 : 0 ≤ tol.parallel) (hversors : HasVersors t) (hversors' : HasVersors t')
    (hstage : t.stage ≠ .uninitialized) {trial : ν → Displacement ℝ} {trial' : ν' → Displacement ℝ}
    (htrial : nodes'.map trial' = (t.revert tol trial).state.endReport (nodes.map trial)) :
    IsBareOutcome nodes nodes' o (t.revert tol trial) (t'.revert tol trial') := by
  obtain ⟨hbound, hbound'⟩ := h.isBound hstage
  have hrestored : IsBare nodes nodes' o (t.restore (nodes.map trial))
      (t'.restore (nodes'.map trial')) := h.restore (by rw [htrial]; rfl)
  rw [revert_of_bound hbound.bound?] at htrial ⊢
  rw [revert_of_bound hbound'.bound?]
  exact hrestored.update h0 (hversors.restore _) (hversors'.restore _) hstage htrial

/-- Both elements at the start. -/
theorem backAtStart (q : Versor ℝ) :
    IsBare nodes nodes' o (t.backAtStart q) (t'.backAtStart q) :=
  { h with seen := rfl, versor := rfl, deformation := rfl }

end IsBare

/-- A commit after an operation. -/
theorem IsBareOutcome.andThen_commit {x : Outcome ℝ (Transformation ν ℝ) Unit}
    {x' : Outcome ℝ (Transformation ν' ℝ) Unit} (h : IsBareOutcome nodes nodes' o x x')
    (hstage : x.state.stage ≠ .uninitialized) :
    IsBareOutcome nodes nodes' o (x.andThen fun t _ => t.commit)
      (x'.andThen fun t _ => t.commit) := by
  have hcommit := h.state.commit hstage
  unfold Outcome.andThen
  rw [h.result]
  cases x.result with
  | error e => exact ⟨h.state, rfl⟩
  | ok b => exact ⟨hcommit.state, hcommit.result⟩

/-- **A reset** at what the end points report. -/
theorem IsBare.reset (h : IsBare nodes nodes' o t t') (h0 : 0 ≤ tol.parallel)
    (hsound : t.IsSound tol position)
    (hsound' : t'.IsSound tol position') (hstage : t.stage ≠ .uninitialized)
    {trial : ν → Displacement ℝ} {trial' : ν' → Displacement ℝ}
    (htrial : nodes'.map trial' = (t.reset tol trial).state.endReport (nodes.map trial)) :
    IsBareOutcome nodes nodes' o (t.reset tol trial) (t'.reset tol trial') := by
  obtain ⟨hbound, hbound'⟩ := h.isBound hstage
  have hq := Versor.ofRotation_square hsound.reference.isRotation
  have hmatrix := Versor.ofMatrix_eq hsound.reference.isRotation
  have hmatrix' : Versor.ofMatrix t'.reference.axes = .ok (.ofRotation t.reference.axes) := by
    rw [h.reference]
    exact hmatrix
  set q := Versor.ofRotation t.reference.axes
  have hstart : IsBound (t.backAtStart q) nodes := ⟨hstage, hbound.nodes⟩
  rw [reset_of_bound hbound.bound? hmatrix] at htrial ⊢
  rw [reset_of_bound hbound'.bound? hmatrix']
  have hupdate : IsBareOutcome nodes nodes' o ((t.backAtStart q).update tol trial)
      ((t'.backAtStart q).update tol trial') := (h.backAtStart q).update h0
    (hsound.versors.backAtStart hq) (hsound'.versors.backAtStart hq) hstage
    (htrial.trans (endReport_andThen_commit _ _))
  exact hupdate.andThen_commit ((update_keeps tol trial (t.backAtStart q)).stage hstart.stage)

/-! ## Attachments -/

/-- **The reference geometry between the end points** is that between the nodes, but for
the offsets. -/
theorem referenceOf_eq_map {config : Configuration ℝ} {xi xj : Vec3 ℝ}
    (h : globalOffsets tol xi xj config.vecxz config.offsets config.flags config.tag = .ok o) :
    referenceOf tol config ⟨xi, xj⟩
      = (referenceOf tol config.bare ⟨xi + o.i, xj + o.j⟩).map fun r => { r with offset := o } := by
  unfold referenceOf
  rw [h]
  change (chord (xi + o.i) (xj + o.j) config.tag >>= _)
    = (chord (xi + o.i + 0) (xj + o.j + 0) config.tag >>= _ : Except _ _).map _
  rw [add_zero, add_zero]
  cases chord (xi + o.i) (xj + o.j) config.tag with
  | error e => rfl
  | ok c =>
    change (orientation tol c.vector config.vecxz config.tag >>= _)
      = (orientation tol c.vector config.vecxz config.tag >>= _ : Except _ _).map _
    cases orientation tol c.vector config.vecxz config.tag <;> rfl

theorem offset_of_bare {config : Configuration ℝ} {position : Ends (Vec3 ℝ)} {r : Reference ℝ}
    (h : referenceOf tol config.bare position = .ok r) : r.offset = .both 0 := by
  obtain ⟨offset, hoffset, h⟩ := exists_of_bind_eq_ok h
  obtain ⟨c, -, h⟩ := exists_of_bind_eq_ok h
  obtain ⟨axes, -, h⟩ := exists_of_bind_eq_ok h
  cases h
  exact (Except.ok.inj hoffset).symm

/-- Nodes without displacements leave nothing to capture. -/
theorem lookForDisplacements_zero (config : Configuration ℝ) :
    ((ofConfiguration config : Transformation ν ℝ).lookForDisplacements 0).1
      = { ofConfiguration config with capture := .none } := by
  have hzero : Displacement.IsZero (0 : Displacement ℝ) := by simp [Displacement.IsZero]
  simp only [lookForDisplacements, ofConfiguration]
  rw [if_pos ⟨hzero, hzero⟩]

/-- Before it is initialized an element without offsets is one made without them. -/
theorem ofConfiguration_isBare (nodes : Ends ν) (nodes' : Ends ν') (o : Ends (Vec3 ℝ))
    (config : Configuration ℝ) :
    IsBare nodes nodes' o (ofConfiguration config) (ofConfiguration config.bare) :=
  ⟨rfl, rfl, fun h => absurd rfl h, fun h => absurd rfl h, ⟨rfl, rfl⟩, rfl, rfl, rfl, rfl, rfl, rfl,
    rfl, rfl, rfl⟩

/-- **An attachment** between the end points, if no node is displaced. -/
theorem attach_isBareOutcome (h0 : 0 ≤ tol.parallel) (config : Configuration ℝ) {i j : ν}
    {i' j' : ν'} {ni nj ni' nj' : Node ℝ}
    (hoffsets : globalOffsets tol ni.position nj.position config.vecxz config.offsets config.flags
      config.tag = .ok o)
    (hpi : ni'.position = ni.position + o.i) (hpj : nj'.position = nj.position + o.j)
    (hi : ni.trial = 0) (hj : nj.trial = 0) (hi' : ni'.trial = 0) (hj' : nj'.trial = 0) :
    IsBareOutcome ⟨i, j⟩ ⟨i', j'⟩ o
      ((ofConfiguration config).attach tol [some (i, ni), some (j, nj)])
      ((ofConfiguration config.bare).attach tol [some (i', ni'), some (j', nj')]) := by
  have hmap : referenceOf tol config ⟨ni.position, nj.position⟩
      = (referenceOf tol config.bare ⟨ni'.position, nj'.position⟩).map
        fun r => { r with offset := o } := by
    rw [hpi, hpj]
    exact referenceOf_eq_map hoffsets
  cases href : referenceOf tol config.bare ⟨ni'.position, nj'.position⟩ with
  | error e =>
    rw [href] at hmap
    rw [attach_of_error (t := ofConfiguration config) hmap, attach_of_error href]
    exact ⟨ofConfiguration_isBare _ _ _ config, rfl⟩
  | ok r =>
    rw [href] at hmap
    obtain ⟨hresult, hstate⟩ := attach_eq (t := ofConfiguration config) (i := i) (j := j) h0 hmap
    obtain ⟨hresult', hstate'⟩ :=
      attach_eq (t := ofConfiguration config.bare) (i := i') (j := j') h0 href
    refine ⟨?_, hresult'.trans hresult.symm⟩
    have hfound := lookForDisplacements_zero (ν := ν) config
    have hfound' := lookForDisplacements_zero (ν := ν') config.bare
    rw [hstate, hstate', hi, hj, hi', hj', attached, attached]
    change IsBare _ _ _ (bind _ _ ((ofConfiguration config).lookForDisplacements 0).1).settled
      (bind _ _ ((ofConfiguration config.bare).lookForDisplacements 0).1).settled
    rw [hfound, hfound']
    refine ⟨rfl, rfl, fun _ => ⟨rfl, rfl⟩, fun _ => rfl, ⟨rfl, rfl⟩, ?_, rfl, rfl, rfl, rfl, rfl,
      rfl, rfl, rfl⟩
    exact Reference.ext rfl rfl rfl (offset_of_bare href)

/-! ## Projections -/

/-- Without arms the link changes nothing. -/
theorem link_zero_apply (x : ElementVector ℝ) : ElementMatrix.apply (link (.both 0)) x = x := by
  rw [link_apply]
  simp [Ends.both]

theorem link_zero_transpose_apply (p : ElementVector ℝ) :
    ElementMatrix.apply (link (.both 0)).transpose p = p := by
  rw [link_transpose_apply]
  simp [Ends.both]

/-- Neither do arms of no length stiffen. -/
theorem armStiffness_zero_apply (force x : ElementVector ℝ) :
    ElementMatrix.apply (armStiffness (.both 0) force) x = 0 := by
  rw [armStiffness_apply]
  refine Slots.ext_slots rfl ?_ rfl ?_ <;> simp [Ends.both]

section Current

variable {d' : Ends (Displacement ℝ)} (h : IsBare nodes nodes' o t t')
variable (hcurrent : IsCurrent tol t d) (hcurrent' : IsCurrent tol t' d')

include h hcurrent hcurrent'

/-- **The tangent with offsets** is that without them after the link. -/
theorem IsBare.tangentMap :
    t.tangentMap tol = ElementMatrix.mul (t'.tangentMap tol) (link t.deformedArm) := by
  refine ElementMatrix.ext_apply fun x => ?_
  rw [Transformation.tangentMap, Transformation.tangentMap, hcurrent'.arm, h.deformedArm, h.triad,
    h.deformation, hcurrent.arm]
  simp only [ElementMatrix.mul_apply, link_zero_apply]

/-- **The stiffness with offsets** is the congruence of that without them with the link,
and the stiffness of the turning arms. -/
theorem IsBare.nodalStiffness (kl : ElementMatrix ℝ) (pl : ElementVector ℝ) :
    t.nodalStiffness tol kl pl = ElementMatrix.add
      (ElementMatrix.congruence (link t.deformedArm) (t'.nodalStiffness tol kl pl))
      (armStiffness t.deformedArm (t.nodalForce tol pl)) := by
  have hmaterial (x : ElementVector ℝ) (k : ElementMatrix ℝ) :
      ElementMatrix.apply (ElementMatrix.congruence (t.tangentMap tol) k) x
        = ElementMatrix.apply (link t.deformedArm).transpose (ElementMatrix.apply
          (ElementMatrix.congruence (t'.tangentMap tol) k)
            (ElementMatrix.apply (link t.deformedArm) x)) := by
    rw [h.tangentMap hcurrent hcurrent']
    simp only [ElementMatrix.congruence_apply, ElementMatrix.mul_apply,
      ElementMatrix.transpose_mul_apply]
  have hweights (x : ElementVector ℝ) (u : ElementVector ℝ) :
      ElementMatrix.apply (tangentTerm (t.tangentMap tol) pl u) x
        = ElementMatrix.apply (link t.deformedArm).transpose (ElementMatrix.apply
          (tangentTerm (t'.tangentMap tol) pl u) (ElementMatrix.apply (link t.deformedArm) x)) := by
    rw [tangentTerm_eq, tangentTerm_eq, hmaterial]
  refine ElementMatrix.ext_apply fun x => ?_
  rw [Transformation.nodalStiffness, Transformation.nodalStiffness, consistentStiffness,
    consistentStiffness, hcurrent.arm, hcurrent'.arm, h.deformedArm, h.triad, h.deformation,
    nodalForce]
  simp only [ElementMatrix.add_apply, ElementMatrix.apply_add, hmaterial, hweights,
    ElementMatrix.congruence_apply (link _), armStiffness_zero_apply, link_zero_apply,
    link_zero_transpose_apply, add_zero]
  abel

/-- **The projections of an element with offsets** are those of the one without them,
carried by the link. -/
theorem IsBare.projections (kl : ElementMatrix ℝ) (pl : ElementVector ℝ) :
    ∃ T f K notices, t'.tangent? = .ok T ∧ t'.pushForce pl = .ok f
      ∧ t'.pushStiffness tol kl pl = .ok (K, notices)
      ∧ t.tangent? = .ok (ElementMatrix.mul T (link t.deformedArm))
      ∧ t.pushForce pl = .ok (ElementMatrix.apply (link t.deformedArm).transpose f)
      ∧ t.pushStiffness tol kl pl = .ok (ElementMatrix.add
          (ElementMatrix.congruence (link t.deformedArm) K)
          (armStiffness t.deformedArm (ElementMatrix.apply (link t.deformedArm).transpose f)),
        notices) := by
  obtain ⟨hforce, hstiffness⟩ := hcurrent.projections kl pl
  obtain ⟨hforce', hstiffness'⟩ := hcurrent'.projections kl pl
  have hT := h.tangentMap hcurrent hcurrent'
  have hf : t.nodalForce tol pl
      = ElementMatrix.apply (link t.deformedArm).transpose (t'.nodalForce tol pl) := by
    rw [nodalForce, hT, ElementMatrix.transpose_mul_apply, nodalForce]
  have hnotices : rightAngleNotices tol t'.tag t'.deformation
      = rightAngleNotices tol t.tag t.deformation := by
    rw [h.tag, h.deformation]
  refine ⟨_, _, _, _, hcurrent'.tangent, hforce', hstiffness', hcurrent.tangent.trans ?_,
    hforce.trans (congrArg Except.ok hf), hstiffness.trans ?_⟩
  · rw [hT]
  · rw [h.nodalStiffness hcurrent hcurrent', hf, hnotices]

end Current

end Transformation

/-! ## Runs -/

namespace Call

variable [SeriesAngle] {ν ν' : Type} {tol : Tolerances ℝ} {nodes : Ends ν} {nodes' : Ends ν'}
variable {t : Transformation ν ℝ} {t' : Transformation ν' ℝ} {o position position' : Ends (Vec3 ℝ)}
variable {c : Call ν ℝ} {c' : Call ν' ℝ}

/-- The second operation is the first one at the end points: the nodes there report what
the end points do with the orientations that the first operation leads to. -/
inductive IsCarried (tol : Tolerances ℝ) (nodes : Ends ν) (nodes' : Ends ν')
    (t : Transformation ν ℝ) : Call ν ℝ → Call ν' ℝ → Prop
  /-- Nothing is reported. -/
  | commit : IsCarried tol nodes nodes' t .commit .commit
  /-- The nodes are followed. -/
  | update {trial : ν → Displacement ℝ} {trial' : ν' → Displacement ℝ}
      (h : nodes'.map trial' = (t.update tol trial).state.endReport (nodes.map trial)) :
      IsCarried tol nodes nodes' t (.update trial) (.update trial')
  /-- The committed orientations are restored. -/
  | revert {trial : ν → Displacement ℝ} {trial' : ν' → Displacement ℝ}
      (h : nodes'.map trial' = (t.revert tol trial).state.endReport (nodes.map trial)) :
      IsCarried tol nodes nodes' t (.revert trial) (.revert trial')
  /-- The reference orientation is restored. -/
  | reset {trial : ν → Displacement ℝ} {trial' : ν' → Displacement ℝ}
      (h : nodes'.map trial' = (t.reset tol trial).state.endReport (nodes.map trial)) :
      IsCarried tol nodes nodes' t (.reset trial) (.reset trial')

/-- Nothing that is carried binds nodes. -/
theorem IsCarried.not_attach (h : IsCarried tol nodes nodes' t c c') :
    (∀ pair, c ≠ .attach pair) ∧ ∀ pair, c' ≠ .attach pair := by
  cases h <;> simp

/-- **Every operation** does to the element between the end points what it does to the
element with offsets. -/
theorem IsCarried.perform (h0 : 0 ≤ tol.parallel) (hc : IsCarried tol nodes nodes' t c c')
    (h : Transformation.IsBare nodes nodes' o t t')
    (hsound : t.stage ≠ .uninitialized → t.IsSound tol position)
    (hsound' : t'.stage ≠ .uninitialized → t'.IsSound tol position') :
    Transformation.IsBareOutcome nodes nodes' o (c.perform tol t) (c'.perform tol t') := by
  -- without bound nodes both operations are refused, under the tag that the elements share
  by_cases hstage : t.stage = .uninitialized
  · obtain ⟨hattach, hattach'⟩ := hc.not_attach
    rw [perform_of_unbound (Transformation.bound?_of_uninitialized hstage) hattach,
      perform_of_unbound (Transformation.bound?_of_uninitialized (h.stage.trans hstage)) hattach',
      h.tag]
    exact ⟨h, rfl⟩
  have hsound := hsound hstage
  have hsound' := hsound' (by rwa [h.stage])
  cases hc with
  | commit => exact h.commit hstage
  | update htrial => exact h.update h0 hsound.versors hsound'.versors hstage htrial
  | revert htrial => exact h.revert h0 hsound.versors hsound'.versors hstage htrial
  | reset htrial => exact h.reset h0 hsound hsound' hstage htrial

end Call

namespace Session

open Transformation (IsBare link)

variable [SeriesAngle] {ν ν' : Type} {tol : Tolerances ℝ} {nodes : Ends ν} {nodes' : Ends ν'}
variable {o : Ends (Vec3 ℝ)}

/-- The operations of the second list are those of the first at the end points, where a
session follows the first list. -/
inductive IsCarriedRun (tol : Tolerances ℝ) (nodes : Ends ν) (nodes' : Ends ν') :
    Session ν ℝ → List (Call ν ℝ) → List (Call ν' ℝ) → Prop
  /-- Nothing is done. -/
  | nil (s : Session ν ℝ) : IsCarriedRun tol nodes nodes' s [] []
  /-- One operation is done, and then the others. -/
  | cons {s : Session ν ℝ} {c : Call ν ℝ} {c' : Call ν' ℝ} {calls : List (Call ν ℝ)}
      {calls' : List (Call ν' ℝ)} (hc : c.IsCarried tol nodes nodes' s.transformation c')
      (hcalls : IsCarriedRun tol nodes nodes' (s.next tol c) calls calls') :
      IsCarriedRun tol nodes nodes' s (c :: calls) (c' :: calls')

/-- **Carried runs** end with the element with offsets and the one between its end
points. -/
theorem IsCarriedRun.isBare (h0 : 0 ≤ tol.parallel) {s : Session ν ℝ} {s' : Session ν' ℝ}
    {calls : List (Call ν ℝ)} {calls' : List (Call ν' ℝ)}
    (hcalls : IsCarriedRun tol nodes nodes' s calls calls')
    (h : IsBare nodes nodes' o s.transformation s'.transformation) (hs : s.Consistent tol)
    (hs' : s'.Consistent tol) : IsBare nodes nodes' o (calls.foldl (next tol) s).transformation
      (calls'.foldl (next tol) s').transformation := by
  induction hcalls generalizing s' with
  | nil s => exact h
  | @cons s c c' calls calls' hc hcalls ih =>
    exact ih (hc.perform h0 h hs.sound hs'.sound).state (next_consistent h0 hs c)
      (next_consistent h0 hs' c')

/-- **Rigid offsets are rigid links.** Let an element with offsets, however they are to be
read, be bound to nodes without displacements, and let `o` be the offsets as global
vectors. Let an element made without them be bound to nodes at the end points, and let
these report at every evaluation what the end points do: the rotational parts of the nodes,
and their translations with the arm `r`, less `o`. Then both attachments are accepted, or
both refused for the same reason, and so is every operation after any run. Both elements
are in the same stage, with the same lengths, local deformations, triad and nodal
rotations. For any local data the projections are refused for both, for the same reason,
or the tangent is that without offsets after the link `A` of the arms, forces are carried
back by its transpose, and the stiffness is the congruence with `A` and a block for the
moment of each nodal force about its turning arm. -/
theorem rigid_link_equivalence (h0 : 0 ≤ tol.parallel) (config : Configuration ℝ) {i j : ν}
    {i' j' : ν'} {ni nj ni' nj' : Node ℝ} {o : Ends (Vec3 ℝ)}
    (hoffsets : globalOffsets tol ni.position nj.position config.vecxz config.offsets config.flags
      config.tag = .ok o)
    (hpi : ni'.position = ni.position + o.i) (hpj : nj'.position = nj.position + o.j)
    (hi : ni.trial = 0) (hj : nj.trial = 0) (hi' : ni'.trial = 0) (hj' : nj'.trial = 0)
    {calls : List (Call ν ℝ)} {calls' : List (Call ν' ℝ)}
    (hcalls : IsCarriedRun tol ⟨i, j⟩ ⟨i', j'⟩
      (run tol config [.attach [some (i, ni), some (j, nj)]]) calls calls') :
    let first : Call ν ℝ := .attach [some (i, ni), some (j, nj)]
    let first' : Call ν' ℝ := .attach [some (i', ni'), some (j', nj')]
    let t := (run tol config (first :: calls)).transformation
    let t' := (run tol config.bare (first' :: calls')).transformation
    let r : Ends (Vec3 ℝ) :=
      t.nodalRotation.zipWith (fun R o => (R * t.reference.axes.transpose).apply o) o
    let A := link r
    (first'.perform tol (.ofConfiguration config.bare)).result
        = (first.perform tol (.ofConfiguration config)).result
      ∧ (∀ c c', Call.IsCarried tol ⟨i, j⟩ ⟨i', j'⟩ t c c' →
        (c'.perform tol t').result = (c.perform tol t).result)
      ∧ t'.stage = t.stage ∧ t'.reference.length = t.reference.length
      ∧ t'.deformedLength = t.deformedLength ∧ t'.deformation = t.deformation
      ∧ t'.triad = t.triad ∧ t'.nodalRotation = t.nodalRotation
      ∧ ∀ kl pl,
        (∃ T f K notices, t'.tangent? = .ok T ∧ t'.pushForce pl = .ok f
          ∧ t'.pushStiffness tol kl pl = .ok (K, notices)
          ∧ t.tangent? = .ok (ElementMatrix.mul T A)
          ∧ ∃ g, t.pushForce pl = .ok g ∧ g = ElementMatrix.apply A.transpose f
            ∧ t.pushStiffness tol kl pl = .ok (ElementMatrix.add (ElementMatrix.congruence A K)
              (.rotational ⟨Mat3.skew g.i.lin * Mat3.skew r.i, Mat3.skew g.j.lin * Mat3.skew r.j⟩),
                notices))
        ∨ ∃ e, t.tangent? = .error e ∧ t.pushForce pl = .error e
          ∧ t.pushStiffness tol kl pl = .error e
          ∧ t'.tangent? = .error e ∧ t'.pushForce pl = .error e
          ∧ t'.pushStiffness tol kl pl = .error e := by
  intro first first' t t' r A
  have hattach : Transformation.IsBareOutcome ⟨i, j⟩ ⟨i', j'⟩ o
      (first.perform tol (.ofConfiguration config))
      (first'.perform tol (.ofConfiguration config.bare)) :=
    Transformation.attach_isBareOutcome h0 config hoffsets hpi hpj hi hj hi' hj'
  have hrun := run_consistent h0 config (first :: calls)
  have hrun' := run_consistent h0 config.bare (first' :: calls')
  have h : IsBare ⟨i, j⟩ ⟨i', j'⟩ o t t' := hcalls.isBare h0 hattach.state
    (run_consistent h0 config [first]) (run_consistent h0 config.bare [first'])
  refine ⟨hattach.result, fun c c' hc => (hc.perform h0 h hrun.sound hrun'.sound).result,
    h.stage, ?_, h.deformedLength, h.deformation, h.triad, h.nodalRotation, fun kl pl => ?_⟩
  · rw [h.reference]
  by_cases hcurrent : t.stage = .current
  · obtain ⟨T, f, K, notices, hT', hf', hK', hT, hf, hK⟩ := h.projections (hrun.current hcurrent)
      (hrun'.current (h.stage.trans hcurrent)) kl pl
    have harm : t.deformedArm = r := by
      rw [Transformation.deformedArm, Transformation.armsOf,
        h.offset (by rw [hcurrent]; exact Stage.noConfusion)]
    rw [harm] at hT hf hK
    exact .inl ⟨T, f, K, notices, hT', hf', hK', hT, _, hf, rfl, hK⟩
  · have hcurrent' : t'.stage ≠ .current := by rwa [h.stage]
    have hreason : t'.outOfStage = t.outOfStage := by
      rw [Transformation.outOfStage, h.stage, h.tag, Transformation.outOfStage]
    obtain ⟨htangent, hforce, hstiffness⟩ := Transformation.query_of_not_current hcurrent
    obtain ⟨htangent', hforce', hstiffness'⟩ := Transformation.query_of_not_current hcurrent'
    rw [hreason] at htangent' hforce' hstiffness'
    exact .inr ⟨_, htangent, hforce pl, hstiffness tol kl pl, htangent', hforce' pl,
      hstiffness' tol kl pl⟩

/-! ### A twisted element behind arms -/

/-- From the reference orientation the first turns carry the offsets along. -/
theorem deformedArm_moved {t : Transformation ν ℝ} (hr : t.reference.axes.IsRotation)
    (hrot : t.nodalRotation = .both t.reference.axes) (hseen : t.seen = .both 0)
    (rot : Ends (Vec3 ℝ)) : (t.moved rot).deformedArm
      = rot.zipWith (fun a o => (Versor.turn a).toMatrix.apply o) t.reference.offset := by
  have harm (a o : Vec3 ℝ) :
      ((Versor.turn (a - 0)).toMatrix * t.reference.axes * t.reference.axes.transpose).apply o
        = (Versor.turn a).toMatrix.apply o := by
    rw [sub_zero, mul_assoc, hr.mul_transpose, mul_one]
  rw [Transformation.deformedArm, Transformation.moved_nodalRotation, hrot, hseen]
  exact Ends.ext (harm _ _) (harm _ _)

/-- The straight element behind arms of unit length across its axis. -/
def braced : Configuration ℝ := { straight with offsets := some (.both ⟨0, 1, 0⟩) }

/-- What its nodes report for the ends of the chord to stay where they are, when they turn
by opposite unit angles. -/
noncomputable def bracedTwist : Ends (Displacement ℝ) :=
  let report (a : Vec3 ℝ) : Displacement ℝ :=
    ⟨⟨0, 1, 0⟩ - (Versor.turn a).toMatrix.apply ⟨0, 1, 0⟩, a⟩
  ⟨report ⟨1, 0, 0⟩, report ⟨-1, 0, 0⟩⟩

/-- Its nodes, across from the ends of the chord. -/
noncomputable def bracedNodes : Ends (Node ℝ) :=
  ⟨.ofPosition .null ⟨0, -1, 0⟩, .ofPosition .null ⟨1, -1, 0⟩⟩

/-- The element is bound to them. -/
noncomputable def bracedAttach : Call Bool ℝ :=
  .attach [some (false, bracedNodes.i), some (true, bracedNodes.j)]

/-- The offsets lead from the nodes to the ends of the straight element. -/
theorem braced_ends : 0 = bracedNodes.i.position + ⟨0, 1, 0⟩
    ∧ (⟨1, 0, 0⟩ : Vec3 ℝ) = bracedNodes.j.position + ⟨0, 1, 0⟩ := by
  constructor <;> ext <;> simp [bracedNodes, Node.ofPosition]

/-- It has the reference geometry of the straight element, but for the offsets. -/
theorem braced_reference (hp : 0 ≤ tol.parallel) (h1 : tol.parallel < 1) :
    ∃ r : Reference ℝ, Transformation.referenceOf tol braced
        ⟨bracedNodes.i.position, bracedNodes.j.position⟩
      = .ok { r with offset := .both ⟨0, 1, 0⟩ } := by
  obtain ⟨r, href, -, -⟩ := straight_reference hp h1
  obtain ⟨hpi, hpj⟩ := braced_ends
  refine ⟨r, ?_⟩
  rw [Transformation.referenceOf_eq_map (o := .both ⟨0, 1, 0⟩) rfl]
  change (Transformation.referenceOf tol straight ⟨_ + ⟨0, 1, 0⟩, _ + ⟨0, 1, 0⟩⟩).map _ = _
  rw [← hpi, ← hpj, href]
  rfl

/-- The ends of the chord turn and stay where they are. -/
theorem braced_isCarriedRun (hp : 0 ≤ tol.parallel) (h1 : tol.parallel < 1) :
    IsCarriedRun tol ⟨false, true⟩ ⟨false, true⟩ (run tol braced [bracedAttach])
      [.update (pairTrial bracedTwist)] [.update (pairTrial (Transformation.twisted 1))] := by
  obtain ⟨r, hmap⟩ := braced_reference hp h1
  have hsound := Transformation.referenceOf_eq_ok hp hmap
  set t : Transformation Bool ℝ := (Transformation.ofConfiguration braced).attached ⟨false, true⟩ 0
    { r with offset := .both ⟨0, 1, 0⟩ }
  have ht : (run tol braced [bracedAttach]).transformation = t :=
    (Transformation.attach_eq (t := .ofConfiguration braced) (i := false) (j := true) hp hmap).2
  have hversors : t.HasVersors := (Transformation.attached_isSound _ _ _ hsound).versors
  have hd : t.displacement bracedTwist = bracedTwist := by
    have hinitial : t.initial = 0 := attached_initial _ _ _ _
    change bracedTwist - t.initial = bracedTwist
    rw [hinitial, sub_zero]
  refine .cons (.update ?_) (.nil _)
  rw [ht, Transformation.endReport_update hp hversors (Transformation.attached_isBound _ _ _ _)]
  change Transformation.twisted 1
    = (t.moved ((t.displacement bracedTwist).map Screw.rot)).endReport bracedTwist
  rw [hd, Transformation.endReport, deformedArm_moved hsound.isRotation
    (Transformation.attached_nodalRotation _ _ _ hsound) rfl]
  have hstay (u o : Vec3 ℝ) : 0 = o - u + u - o := by abel
  exact Slots.ext_slots (hstay _ _) rfl (hstay _ _) rfl

omit [SeriesAngle] in
/-- The straight element, twisted by the nodes at the other ends of its arms, under an
axial force and a moment. -/
theorem rigid_link_equivalence_twisted :
    letI : SeriesAngle := .exact
    let t := (run .standard braced [bracedAttach, .update (pairTrial bracedTwist)]).transformation
    let t' := (twistedSession .standard).transformation
    let pl : ElementVector ℝ := ⟨⟨0, ⟨0, 1, 0⟩⟩, ⟨⟨1, 0, 0⟩, 0⟩⟩
    t.stage = .current ∧ t.deformation = Transformation.twisted 1
      ∧ t'.nodalRotation = t.nodalRotation
      ∧ ∃ T A f, t'.tangent? = .ok T ∧ t.tangent? = .ok (ElementMatrix.mul T A)
        ∧ t'.pushForce pl = .ok f ∧ t.pushForce pl = .ok (ElementMatrix.apply A.transpose f) := by
  let _ : SeriesAngle := .exact
  intro t t' pl
  have h0 := Tolerances.standard_admissible_exact.parallel_nonneg
  have hcos := Tolerances.standard_parallel_lt_cos
  obtain ⟨hstage, -, -, hdeformation⟩ := twistedSession_current le_rfl one_pos h0 hcos
  have hoffsets : globalOffsets .standard bracedNodes.i.position bracedNodes.j.position
    braced.vecxz braced.offsets braced.flags braced.tag = .ok (.both ⟨0, 1, 0⟩) := rfl
  have hpi : (Node.ofPosition .null 0 : Node ℝ).position
      = bracedNodes.i.position + (Ends.both ⟨0, 1, 0⟩ : Ends (Vec3 ℝ)).i := braced_ends.1
  have hpj : (Node.ofPosition .null ⟨1, 0, 0⟩ : Node ℝ).position
      = bracedNodes.j.position + (Ends.both ⟨0, 1, 0⟩ : Ends (Vec3 ℝ)).j := braced_ends.2
  obtain ⟨-, -, hstage', -, -, hdeformation', -, hrotation, hprojections⟩ :=
    rigid_link_equivalence h0 braced hoffsets hpi hpj rfl rfl rfl rfl
      (braced_isCarriedRun h0 (hcos.trans_le (Real.cos_le_one 1)))
  have hcurrent : t.stage = .current := hstage'.symm.trans hstage
  refine ⟨hcurrent, hdeformation'.symm.trans hdeformation, hrotation, ?_⟩
  rcases hprojections .identity pl with
    ⟨T, f, -, -, hT', hf', -, hT, _, hf, rfl, -⟩ | ⟨e, htangent, -⟩
  · exact ⟨T, _, f, hT', hT, hf', hf⟩
  · cases ((run_consistent h0 braced _).current hcurrent).tangent.symm.trans htangent

end Session

end Corotation
