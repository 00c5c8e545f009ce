import Corotation.Proofs.Frame.Geometry
import Corotation.Proofs.Transformation.Evaluation
/-!
# Attachments over the real numbers

An accepted reference geometry is sound: its axes are a rotation, and its
chord is the vector between the offset end points and has the length that goes
with it. So the orientations and the triad of the reference can always be set,
and an attachment either leaves the transformation as it was or succeeds and
leaves a sound one (`attach_cases`).
-/

namespace Corotation

/-- A sequence of two steps that succeeds does so with both. -/
theorem exists_of_bind_eq_ok {ε α β : Type} {x : Except ε α} {f : α → Except ε β} {b : β}
    (h : x >>= f = .ok b) : ∃ a, x = .ok a ∧ f a = .ok b := by
  cases x with
  | error e => cases h
  | ok a => exact ⟨a, rfl, h⟩

variable [SeriesAngle] {ν : Type} {tol : Tolerances ℝ}

/-- A reference geometry of an element between nodes at the given positions:
the axes are a rotation with the first one along the chord, and determine a
triad on it. -/
structure Reference.IsSound (tol : Tolerances ℝ) (r : Reference ℝ) (position : Ends (Vec3 ℝ)) :
    Prop where
  isRotation : r.axes.IsRotation
  first_axis : r.axes.c1 = Triad.direction r.chord
  length : r.length = r.chord.norm
  chord : r.chord = position.j + r.offset.j - (position.i + r.offset.i)
  determined : Triad.Determined tol (.both r.axes.c2) r.chord

namespace Transformation

variable {t : Transformation ν ℝ} {config : Configuration ℝ} {position : Ends (Vec3 ℝ)}
variable {r : Reference ℝ}

/-- **An accepted reference geometry is sound.** -/
theorem referenceOf_eq_ok (h0 : 0 ≤ tol.parallel) (h : referenceOf tol config position = .ok r) :
    r.IsSound tol position := by
  obtain ⟨offset, -, h⟩ := exists_of_bind_eq_ok h
  obtain ⟨c, hchord, h⟩ := exists_of_bind_eq_ok h
  obtain ⟨axes, haxes, h⟩ := exists_of_bind_eq_ok h
  cases h
  obtain ⟨hvector, hlength, hpos⟩ := chord_eq_ok hchord
  exact ⟨isRotation_of_orientation h0 hpos haxes, first_axis_of_orientation haxes, hlength,
    hvector, determined_of_orientation h0 hpos haxes⟩

/-- An element without offsets has a reference geometry between distinct nodes,
if its reference vector reaches across the chord. -/
theorem exists_referenceOf (hoffsets : config.offsets = none)
    (hpos : 0 < (position.j - position.i).norm)
    (hacross : tol.parallel * max config.vecxz.norm 1
      < (config.vecxz.cross (Triad.direction (position.j - position.i))).norm) :
    ∃ r, referenceOf tol config position = .ok r ∧ r.offset = .both 0 := by
  have hchord : position.j + 0 - (position.i + 0) = position.j - position.i := by
    rw [add_zero, add_zero]
  obtain ⟨c, hc, hvector⟩ := exists_chord (hchord ▸ hpos) config.tag
  obtain ⟨m, hm⟩ := exists_orientation (hvector.trans hchord ▸ hacross) config.tag
  refine ⟨⟨c.length, c.vector, m, .both 0⟩, ?_, rfl⟩
  unfold referenceOf globalOffsets
  rw [hoffsets]
  change (Corotation.chord (position.i + 0) (position.j + 0) config.tag >>= fun c =>
    orientation tol c.vector config.vecxz config.tag >>= fun axes =>
      pure (⟨c.length, c.vector, axes, .both 0⟩ : Reference ℝ)) = _
  rw [hc]
  change (orientation tol c.vector config.vecxz config.tag >>= fun axes =>
    pure (⟨c.length, c.vector, axes, .both 0⟩ : Reference ℝ)) = _
  rw [hm]
  rfl

/-- What an initialized transformation is: bound to two nodes, with a sound
reference geometry and versors for its orientations. -/
structure IsSound (tol : Tolerances ℝ) (t : Transformation ν ℝ) (position : Ends (Vec3 ℝ)) :
    Prop where
  bound : ∃ nodes, IsBound t nodes
  reference : t.reference.IsSound tol position
  versors : HasVersors t

/-- The state with the orientations and the triad of its reference. -/
noncomputable def settled (t : Transformation ν ℝ) : Transformation ν ℝ :=
  { t.start (Versor.ofRotation t.reference.axes) with
    triad := .between (.both t.reference.axes.c2) t.reference.chord,
    stage := .initialized }.snapshot

/-- The orientations and the triad of a sound reference can be set. -/
theorem settle_eq (hr : t.reference.IsSound tol position) : t.settle tol = .ok t.settled () := by
  have htriad : Triad.ofReference tol t.reference.chord t.reference.axes
      = .ok (.between (.both t.reference.axes.c2) t.reference.chord) := by
    unfold Triad.ofReference
    simp only [Scalar.le_real]
    rw [if_neg (not_le.mpr hr.determined.length_pos)]
    exact Triad.ofAxes_eq hr.determined
  unfold settle
  rw [Versor.ofMatrix_eq hr.isRotation]
  simp only [start]
  rw [htriad]
  rfl

/-- The state after an attachment with an accepted reference geometry. -/
noncomputable def attached (t : Transformation ν ℝ) (nodes : Ends ν)
    (trial : Ends (Displacement ℝ)) (r : Reference ℝ) : Transformation ν ℝ :=
  ((t.lookForDisplacements trial).1.bind nodes r).settled

/-- **An attachment succeeds where its reference geometry is accepted.** -/
theorem attach_eq (h0 : 0 ≤ tol.parallel) {i j : ν} {ni nj : Node ℝ}
    (href : referenceOf tol t.config ⟨ni.position, nj.position⟩ = .ok r) :
    (t.attach tol [some (i, ni), some (j, nj)]).result = .ok ()
      ∧ (t.attach tol [some (i, ni), some (j, nj)]).state
        = t.attached ⟨i, j⟩ ⟨ni.trial, nj.trial⟩ r := by
  have hsettle := settle_eq (ν := ν)
    (t := (t.lookForDisplacements ⟨ni.trial, nj.trial⟩).1.bind ⟨i, j⟩ r)
    (referenceOf_eq_ok h0 href)
  unfold attach
  simp only [href, hsettle]
  exact ⟨rfl, rfl⟩

/-- **It leaves a sound transformation.** -/
theorem attached_isSound (t : Transformation ν ℝ) (nodes : Ends ν)
    (trial : Ends (Displacement ℝ)) (hr : r.IsSound tol position) :
    (t.attached nodes trial r).IsSound tol position := by
  have hq := Versor.ofRotation_square hr.isRotation
  exact ⟨⟨nodes, nofun, rfl⟩, hr, hq, hq, hq, hq⟩

theorem attached_isBound (t : Transformation ν ℝ) (nodes : Ends ν)
    (trial : Ends (Displacement ℝ)) (r : Reference ℝ) : IsBound (t.attached nodes trial r) nodes :=
  ⟨nofun, rfl⟩

/-- Both nodes start at the reference orientation. -/
theorem attached_nodalRotation (t : Transformation ν ℝ) (nodes : Ends ν)
    (trial : Ends (Displacement ℝ)) (hr : r.IsSound tol position) :
    (t.attached nodes trial r).nodalRotation = .both r.axes :=
  Ends.ext (Versor.toMatrix_ofRotation hr.isRotation) (Versor.toMatrix_ofRotation hr.isRotation)

/-- An attachment succeeds with a sound transformation or leaves the former
one. -/
theorem attach_cases (h0 : 0 ≤ tol.parallel) (nodes : List (Option (ν × Node ℝ)))
    (t : Transformation ν ℝ) :
    (∃ i ni j nj, nodes = [some (i, ni), some (j, nj)] ∧ (t.attach tol nodes).result = .ok ()
        ∧ (t.attach tol nodes).state.stage = .initialized
        ∧ (t.attach tol nodes).state.IsSound tol ⟨ni.position, nj.position⟩)
      ∨ (∃ e, t.attach tol nodes = .fail t e) := by
  by_cases hpair : ∃ i ni j nj, nodes = [some (i, ni), some (j, nj)]
  · obtain ⟨i, ni, j, nj, rfl⟩ := hpair
    cases href : referenceOf tol t.config ⟨ni.position, nj.position⟩ with
    | error e =>
      refine .inr ⟨e, ?_⟩
      unfold attach
      simp only [href]
    | ok r =>
      obtain ⟨hresult, hstate⟩ := attach_eq (i := i) (j := j) h0 href
      refine .inl ⟨i, ni, j, nj, rfl, hresult, ?_, ?_⟩ <;> rw [hstate]
      · rfl
      · exact attached_isSound t _ _ (referenceOf_eq_ok h0 href)
  · refine .inr ⟨.missingNode t.tag, ?_⟩
    unfold attach
    split
    · rename_i i ni j nj
      exact absurd ⟨i, ni, j, nj, rfl⟩ hpair
    · rfl

/-- An accepted attachment was given two nodes with a reference geometry, and leaves what
is set up from them. -/
theorem attach_of_ok (h0 : 0 ≤ tol.parallel) {pair : List (Option (ν × Node ℝ))}
    (h : (t.attach tol pair).result = .ok ()) : ∃ i ni j nj r, pair = [some (i, ni), some (j, nj)]
      ∧ referenceOf tol t.config ⟨ni.position, nj.position⟩ = .ok r
      ∧ (t.attach tol pair).state = t.attached ⟨i, j⟩ ⟨ni.trial, nj.trial⟩ r := by
  rcases t.attach_cases h0 pair with ⟨i, ni, j, nj, rfl, -⟩ | ⟨e, heq⟩
  · cases href : referenceOf tol t.config ⟨ni.position, nj.position⟩ with
    | ok r => exact ⟨i, ni, j, nj, r, rfl, href, (attach_eq h0 href).2⟩
    | error e =>
      unfold attach at h
      simp only [href] at h
      cases h
  · rw [heq] at h
    cases h

end Transformation

end Corotation
