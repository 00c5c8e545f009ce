import Corotation.Proofs.Scalar.Partial
import Corotation.Proofs.Transformation.Twisted
/-!
# What an attachment leaves behind

An attachment is refused at once where it is not given two nodes, or where there is no
reference geometry between them, and changes nothing then. Once the reference geometry is
accepted it is put in place, and only after that the orientations and the triad are made
from it. Where its axes have no versor, or no triad goes with them, the attachment is
refused as well, but what was put in place stays (`attach_without_frame`).

Over the real numbers every accepted reference geometry has a frame
(`hasFrame_of_referenceOf`), so an attachment that is refused changes nothing. Over other
scalars it need not have one: a position with a coordinate that is not a number passes every
test of the geometry.
-/

namespace Corotation

/-- The axes of a reference geometry have a versor, and determine a triad on its chord. -/
def Reference.HasFrame {α : Type} [Scalar α] (tol : Tolerances α) (r : Reference α) : Prop :=
  (∃ q, Versor.ofMatrix r.axes = .ok q) ∧ ∃ triad, Triad.ofReference tol r.chord r.axes = .ok triad

/-! ## Positions that are not numbers -/

namespace PartialReal

open Scalar

/-- The matrix without a defined entry. -/
def undefinedMatrix : Mat3 PartialReal :=
  let row : Vec3 PartialReal := ⟨undefined, undefined, undefined⟩
  ⟨row, row, row⟩

/-- It has no versor. -/
theorem ofMatrix_undefinedMatrix :
    Versor.ofMatrix undefinedMatrix = .error (.fault .decomposition) := by
  have hdet : ¬ undefinedMatrix.det ≤ 0 := by
    simp [Mat3.det, undefinedMatrix, Mat3.detPivot, Mat3.det2, magnitude, IsZero]
  have horthonormal : ¬ Versor.IsOrthonormal undefinedMatrix := by
    simp [Versor.IsOrthonormal, undefinedMatrix, Vec3.dot, magnitude]
  have hfinite : ¬ Versor.IsFiniteMatrix undefinedMatrix := by
    simp [Versor.IsFiniteMatrix, undefinedMatrix, Mat3.rows, IsFinite, IsZero]
  unfold Versor.ofMatrix
  rw [if_neg hdet, if_neg horthonormal, if_neg hfinite]

theorem norm_of_undefined {v : Vec3 PartialReal} (h : v.x = undefined) : v.norm = undefined := by
  simp [Vec3.norm, Vec3.dot, h]

/-- A chord with an undefined component has an orientation. -/
theorem orientation_of_undefined (tol : Tolerances PartialReal) {chord : Vec3 PartialReal}
    (h : chord.x = undefined) (v : Vec3 PartialReal) (element : Label) :
    orientation tol chord v element = .ok undefinedMatrix := by
  have hfirst : chord.divide chord.norm = ⟨undefined, undefined, undefined⟩ := by
    simp [Vec3.divide, norm_of_undefined h]
  have hnormal : v.cross ⟨undefined, undefined, undefined⟩ = ⟨undefined, undefined, undefined⟩ := by
    simp [Vec3.cross]
  unfold orientation
  simp only [hfirst, hnormal, norm_of_undefined]
  rw [if_neg (not_undefined_le _)]
  rfl

/-- **A position that is not a number passes every test of the geometry**, and what is made
from it has no frame. -/
theorem referenceOf_undefined (tol : Tolerances PartialReal) {config : Configuration PartialReal}
    (hoffsets : config.offsets = none) {position : Ends (Vec3 PartialReal)}
    (h : position.j.x = undefined) :
    ∃ r, Transformation.referenceOf tol config position = .ok r ∧ ¬ r.HasFrame tol := by
  set v : Vec3 PartialReal := position.j + .zero - (position.i + .zero) with hv
  have hx : v.x = undefined := by
    change position.j.x + 0 - (position.i.x + 0) = undefined
    rw [h, undefined_add, undefined_sub]
  refine ⟨⟨v.norm, v, undefinedMatrix, .both .zero⟩, ?_, ?_⟩
  · have hchord : chord (position.i + .zero) (position.j + .zero) config.tag
        = .ok ⟨v.norm, v⟩ := by
      unfold chord
      simp only [← hv, norm_of_undefined hx]
      rw [if_neg (not_undefined_le _)]
    unfold Transformation.referenceOf globalOffsets
    rw [hoffsets]
    simp only [Ends.both, hchord, bind, Except.bind, orientation_of_undefined tol hx]
    rfl
  · rintro ⟨⟨q, hq⟩, -⟩
    cases ofMatrix_undefinedMatrix.symm.trans hq

/-- An element without offsets, with the third axis for its reference vector. -/
noncomputable def straight : Configuration PartialReal := ⟨.null, ⟨0, 0, 1⟩, none, .none⟩

/-- A node on the first axis. -/
noncomputable def nodeAt (x : PartialReal) : Node PartialReal :=
  .ofPosition .null ⟨x, number 0, number 0⟩

/-- A node at the origin, and one on the first axis. -/
noncomputable def nodesTo (x : PartialReal) : List (Option (Bool × Node PartialReal)) :=
  [some (false, nodeAt (number 0)), some (true, nodeAt x)]

/-- Nodes that coincide have no reference geometry. -/
theorem referenceOf_coinciding (tol : Tolerances PartialReal) : ∃ e, Transformation.referenceOf tol
    straight ⟨(nodeAt (number 0)).position, (nodeAt (number 0)).position⟩ = .error e := by
  set v := (nodeAt (number 0)).position with hv
  have hnorm : (v + .zero - (v + .zero)).norm ≤ 0 := by
    have hzero : v + .zero - (v + .zero) = .zero := by
      rw [hv]
      change (⟨number 0 + 0 - (number 0 + 0), number 0 + 0 - (number 0 + 0),
        number 0 + 0 - (number 0 + 0)⟩ : Vec3 PartialReal) = ⟨0, 0, 0⟩
      simp
    have hdot : (.zero : Vec3 PartialReal).dot .zero = number 0 := by
      simp [Vec3.dot, Vec3.zero]
    rw [hzero, Vec3.norm, hdot, sqrt_number le_rfl, Real.sqrt_zero]
    simp
  have hchord : ∃ e, chord (v + (.zero : Vec3 PartialReal)) (v + (.zero : Vec3 PartialReal)) .null
      = .error e := ⟨_, if_pos hnorm⟩
  obtain ⟨e, he⟩ := hchord
  refine ⟨e, ?_⟩
  simp only [Transformation.referenceOf, globalOffsets, straight, Ends.both, he, bind, Except.bind]

/-- Nodes of which the second one is nowhere have one without a frame. -/
theorem referenceOf_nowhere (tol : Tolerances PartialReal) : ∃ r, Transformation.referenceOf tol
    straight ⟨(nodeAt (number 0)).position, (nodeAt undefined).position⟩ = .ok r
      ∧ ¬ r.HasFrame tol := referenceOf_undefined tol rfl rfl

end PartialReal

namespace Transformation

section General

variable {ν α : Type} [Scalar α] {tol : Tolerances α}
variable {t : Transformation ν α} {i j : ν} {ni nj : Node α} {r : Reference α}

/-! ## Displacements found -/

/-- Nothing but the capture is changed by looking for displacements. -/
theorem lookForDisplacements_eq (t : Transformation ν α) (trial : Ends (Displacement α)) :
    ∃ capture initial, (t.lookForDisplacements trial).1 = { t with capture, initial } := by
  unfold lookForDisplacements
  split
  · split
    · exact ⟨_, t.initial, rfl⟩
    · exact ⟨_, _, rfl⟩
  · exact ⟨t.capture, t.initial, rfl⟩

/-- Displacements were looked for afterwards. -/
theorem lookForDisplacements_capture (t : Transformation ν α) (trial : Ends (Displacement α)) :
    (t.lookForDisplacements trial).1.capture ≠ .unchecked := by
  unfold lookForDisplacements
  split
  · split <;> exact nofun
  · rename_i hcapture
    exact hcapture

/-- If none are captured then none were before. -/
theorem lookForDisplacements_initial (t : Transformation ν α) (trial : Ends (Displacement α))
    (h : (t.lookForDisplacements trial).1.capture ≠ .captured) : t.capture ≠ .captured
      ∧ (t.lookForDisplacements trial).1.initial = t.initial := by
  unfold lookForDisplacements at h ⊢
  cases hcapture : t.capture with
  | unchecked =>
    simp only [hcapture] at h ⊢
    by_cases hzero : Displacement.IsZero trial.i ∧ Displacement.IsZero trial.j
    · rw [if_pos hzero]
      exact ⟨nofun, rfl⟩
    · rw [if_neg hzero] at h
      exact absurd rfl h
  | none => exact ⟨nofun, rfl⟩
  | captured =>
    simp only [hcapture] at h
    exact absurd rfl h

/-- Once that is done nothing more is found. -/
theorem lookForDisplacements_of_checked (h : t.capture ≠ .unchecked)
    (trial : Ends (Displacement α)) : t.lookForDisplacements trial = (t, []) := by
  unfold lookForDisplacements
  split
  · rename_i hcapture
    exact absurd hcapture h
  · rfl

/-! ## Attachments with a reference geometry -/

/-- What an attachment puts in place before it makes the frame. -/
def placed (t : Transformation ν α) (nodes : Ends ν) (trial : Ends (Displacement α))
    (r : Reference α) : Transformation ν α := (t.lookForDisplacements trial).1.bind nodes r

/-- Both nodes at the orientation `q`, with the triad of the reference, all of it committed. -/
def framed (t : Transformation ν α) (q : Versor α) (triad : Triad α) : Transformation ν α :=
  { t.start q with triad, stage := .initialized }.snapshot

/-- With a reference geometry all depends on the frame. -/
theorem attach_of_reference (href : referenceOf tol t.config ⟨ni.position, nj.position⟩ = .ok r) :
    let o := (t.placed ⟨i, j⟩ ⟨ni.trial, nj.trial⟩ r).settle tol
    (t.attach tol [some (i, ni), some (j, nj)]).state = o.state
      ∧ (t.attach tol [some (i, ni), some (j, nj)]).result = o.result := by
  unfold attach
  simp only [href]
  exact ⟨rfl, rfl⟩

/-- With a frame the orientations and the triad are set. -/
theorem settle_of_frame {q : Versor α} {triad : Triad α}
    (hq : Versor.ofMatrix t.reference.axes = .ok q)
    (htriad : Triad.ofReference tol t.reference.chord t.reference.axes = .ok triad) :
    t.settle tol = .ok (t.framed q triad) () := by
  unfold settle
  simp only [hq, start, htriad]
  rfl

/-- **With a frame an attachment succeeds.** -/
theorem attach_of_frame (href : referenceOf tol t.config ⟨ni.position, nj.position⟩ = .ok r)
    {q : Versor α} {triad : Triad α} (hq : Versor.ofMatrix r.axes = .ok q)
    (htriad : Triad.ofReference tol r.chord r.axes = .ok triad) :
    (t.attach tol [some (i, ni), some (j, nj)]).result = .ok ()
      ∧ (t.attach tol [some (i, ni), some (j, nj)]).state
        = (t.placed ⟨i, j⟩ ⟨ni.trial, nj.trial⟩ r).framed q triad := by
  obtain ⟨hstate, hresult⟩ := attach_of_reference (i := i) (j := j) href
  have hsettle : (t.placed ⟨i, j⟩ ⟨ni.trial, nj.trial⟩ r).settle tol
      = .ok ((t.placed ⟨i, j⟩ ⟨ni.trial, nj.trial⟩ r).framed q triad) () :=
    settle_of_frame hq htriad
  rw [hstate, hresult, hsettle]
  exact ⟨rfl, rfl⟩

/-- The second state has the nodes and the reference geometry put in place, the first one
was without them: the length and the arms go with the reference, and the stage, the triad and
the commit are those of before. -/
structure Places (nodes : Ends ν) (r : Reference α) (t t' : Transformation ν α) : Prop where
  nodes : t'.nodes = some nodes
  reference : t'.reference = r
  deformedLength : t'.deformedLength = r.length
  arm : t'.arm = r.offset
  capture : t'.capture ≠ .unchecked
  config : t'.config = t.config
  stage : t'.stage = t.stage
  triad : t'.triad = t.triad
  committed : t'.committed = t.committed
  committedVersor : t'.committedVersor = t.committedVersor

/-- That is so before the frame is made. -/
theorem places_placed (t : Transformation ν α) (nodes : Ends ν) (trial : Ends (Displacement α))
    (r : Reference α) : Places nodes r t (t.placed nodes trial r) := by
  obtain ⟨capture, initial, hfound⟩ := t.lookForDisplacements_eq trial
  have hcapture := t.lookForDisplacements_capture trial
  rw [hfound] at hcapture
  rw [placed, hfound]
  exact ⟨rfl, rfl, rfl, rfl, hcapture, rfl, rfl, rfl, rfl, rfl⟩

/-- It stays so when the orientations are set. -/
theorem Places.start {nodes : Ends ν} {t' : Transformation ν α} (h : Places nodes r t t')
    (q : Versor α) : Places nodes r t (t'.start q) :=
  ⟨h.nodes, h.reference, h.deformedLength, h.arm, h.capture, h.config, h.stage, h.triad,
    h.committed, h.committedVersor⟩

/-- **Without a frame it is refused**, and leaves what it has put in place. -/
theorem attach_without_frame (href : referenceOf tol t.config ⟨ni.position, nj.position⟩ = .ok r)
    (h : ¬ r.HasFrame tol) :
    (∃ e, (t.attach tol [some (i, ni), some (j, nj)]).result = .error e)
      ∧ Places ⟨i, j⟩ r t (t.attach tol [some (i, ni), some (j, nj)]).state := by
  obtain ⟨hstate, hresult⟩ := attach_of_reference (i := i) (j := j) href
  have hplaced := t.places_placed ⟨i, j⟩ ⟨ni.trial, nj.trial⟩ r
  rw [hstate, hresult]
  unfold settle
  rw [hplaced.reference]
  -- without a versor nothing is set, and without a triad the orientations are
  cases hq : Versor.ofMatrix r.axes with
  | error e => exact ⟨⟨e, rfl⟩, hplaced⟩
  | ok q =>
    have hstart := hplaced.start q
    simp only [hstart.reference]
    cases htriad : Triad.ofReference tol r.chord r.axes with
    | error e => exact ⟨⟨e, rfl⟩, hstart⟩
    | ok triad => exact absurd ⟨⟨q, hq⟩, triad, htriad⟩ h

/-- **A refused attachment changes nothing, unless its reference geometry was accepted
without a frame.** Then the nodes are bound, the reference geometry is replaced, with the
length and the arms that go with it, and displacements of the nodes are captured, while the
stage, the triad and the commit are those of before. -/
theorem refused_attach_unchanged (tol : Tolerances α) (t : Transformation ν α)
    (pair : List (Option (ν × Node α))) :
    let o := t.attach tol pair
    (∀ e, o.result = .error e → o = .fail t e
        ∨ ∃ i ni j nj r, pair = [some (i, ni), some (j, nj)]
          ∧ referenceOf tol t.config ⟨ni.position, nj.position⟩ = .ok r ∧ ¬ r.HasFrame tol)
      ∧ ∀ i ni j nj r, pair = [some (i, ni), some (j, nj)] →
        referenceOf tol t.config ⟨ni.position, nj.position⟩ = .ok r →
        (r.HasFrame tol → o.result = .ok ())
          ∧ (¬ r.HasFrame tol → (∃ e, o.result = .error e) ∧ Places ⟨i, j⟩ r t o.state) := by
  intro o
  refine ⟨fun e he => ?_, ?_⟩
  · by_cases hpair : ∃ m n, pair = [some m, some n]
    · obtain ⟨⟨i, ni⟩, ⟨j, nj⟩, rfl⟩ := hpair
      cases href : referenceOf tol t.config ⟨ni.position, nj.position⟩ with
      | error e' =>
        have ho : o = .fail t e' := attach_of_error href
        rw [ho] at he
        cases he
        exact .inl ho
      | ok r =>
        refine .inr ⟨i, ni, j, nj, r, rfl, href, fun ⟨⟨q, hq⟩, triad, htriad⟩ => ?_⟩
        cases (attach_of_frame (i := i) (j := j) href hq htriad).1.symm.trans he
    · have ho : o = .fail t (.missingNode t.tag) :=
        t.attach_of_not_pair fun m n heq => hpair ⟨m, n, heq⟩
      rw [ho] at he
      cases he
      exact .inl ho
  · rintro i ni j nj r rfl href
    exact ⟨fun ⟨⟨q, hq⟩, triad, htriad⟩ => (attach_of_frame href hq htriad).1,
      attach_without_frame href⟩

/-- Two nodes that coincide are refused at once. With a position that is not a number the
geometry is accepted, so the nodes are bound. -/
theorem refused_attach_unchanged_straight :
    let t : Transformation Bool PartialReal := .ofConfiguration PartialReal.straight
    (∃ e, t.attach .standard (PartialReal.nodesTo (.number 0)) = .fail t e)
      ∧ (t.attach .standard (PartialReal.nodesTo .undefined)).state.nodes = some ⟨false, true⟩ := by
  intro t
  obtain ⟨e, hnone⟩ := PartialReal.referenceOf_coinciding .standard
  obtain ⟨r, href, hframe⟩ := PartialReal.referenceOf_nowhere .standard
  have hrefused : (t.attach .standard (PartialReal.nodesTo (.number 0))).result = .error e :=
    congrArg Outcome.result (attach_of_error hnone)
  refine ⟨⟨e, ?_⟩, ?_⟩
  · rcases (refused_attach_unchanged .standard t _).1 e hrefused with
      h | ⟨_, _, _, _, _, hpair, h, -⟩
    · exact h
    · cases hpair
      cases hnone.symm.trans h
  · have haccepted := (refused_attach_unchanged .standard t (PartialReal.nodesTo .undefined)).2
      false _ true _ r rfl href
    exact (haccepted.2 hframe).2.nodes

/-- **So a refused attachment need not leave the state alone**: the nodes are bound, and the
look for displacements is used up. -/
theorem refused_attach_changes :
    let t : Transformation Bool PartialReal := .ofConfiguration PartialReal.straight
    let o := t.attach .standard (PartialReal.nodesTo .undefined)
    (∃ e, o.result = .error e) ∧ o.state.nodes ≠ t.nodes ∧ o.state.capture ≠ t.capture := by
  intro t o
  obtain ⟨r, href, hframe⟩ := PartialReal.referenceOf_nowhere .standard
  obtain ⟨herror, hplaces⟩ := attach_without_frame (t := t) (i := false) (j := true) href hframe
  refine ⟨herror, fun h => ?_, hplaces.capture⟩
  cases hplaces.nodes.symm.trans h

/-! ## What stays bound -/

/-- The second state has the same nodes bound as the first one, with the same reference
geometry and the same displacements captured, and is initialized if the first one is. -/
structure SameBinding (t t' : Transformation ν α) : Prop where
  config : t'.config = t.config
  nodes : t'.nodes = t.nodes
  capture : t'.capture = t.capture
  initial : t'.initial = t.initial
  reference : t'.reference = t.reference
  stage : t.stage ≠ .uninitialized → t'.stage ≠ .uninitialized

namespace SameBinding

omit [Scalar α]

variable {t' : Transformation ν α}

theorem refl (t : Transformation ν α) : SameBinding t t := ⟨rfl, rfl, rfl, rfl, rfl, id⟩

theorem trans {t'' : Transformation ν α} (h : SameBinding t t') (h' : SameBinding t' t'') :
    SameBinding t t'' :=
  ⟨h'.config.trans h.config, h'.nodes.trans h.nodes, h'.capture.trans h.capture,
    h'.initial.trans h.initial, h'.reference.trans h.reference, fun hs => h'.stage (h.stage hs)⟩

/-- A second operation after a first, if both keep what is bound. -/
theorem andThen {o : Outcome α (Transformation ν α) Unit}
    {next : Transformation ν α → Unit → Outcome α (Transformation ν α) Unit}
    (h : SameBinding t o.state) (hnext : ∀ u, SameBinding u (next u ()).state) :
    SameBinding t (o.andThen next).state := by
  unfold Outcome.andThen
  split
  · exact h
  · exact h.trans (hnext o.state)

end SameBinding

omit [Scalar α] in
theorem Keeps.sameBinding {t' : Transformation ν α} (h : Keeps t t') : SameBinding t t' :=
  ⟨h.config, h.nodes, h.capture, h.initial, h.reference, h.stage⟩

/-- Making the frame keeps what is bound, also where there is none. -/
theorem settle_sameBinding (tol : Tolerances α) (t : Transformation ν α) :
    SameBinding t (t.settle tol).state := by
  unfold settle
  cases Versor.ofMatrix t.reference.axes with
  | error e => exact .refl t
  | ok q =>
    simp only [start]
    cases Triad.ofReference tol t.reference.chord t.reference.axes with
    | error e => exact ⟨rfl, rfl, rfl, rfl, rfl, id⟩
    | ok triad =>
      have hstage : Stage.initialized ≠ .uninitialized := by decide
      exact ⟨rfl, rfl, rfl, rfl, rfl, fun _ => hstage⟩

/-- An attachment with a reference geometry leaves what it has put in place bound. -/
theorem attach_sameBinding
    (href : referenceOf tol t.config ⟨ni.position, nj.position⟩ = .ok r) :
    SameBinding (t.placed ⟨i, j⟩ ⟨ni.trial, nj.trial⟩ r)
      (t.attach tol [some (i, ni), some (j, nj)]).state := by
  rw [(attach_of_reference (i := i) (j := j) href).1]
  exact settle_sameBinding tol _

/-- An attachment leaves the state as it was, or what it has put in place bound. -/
theorem attach_state_cases (tol : Tolerances α) (t : Transformation ν α)
    (pair : List (Option (ν × Node α))) : (t.attach tol pair).state = t
      ∨ ∃ i ni j nj r, pair = [some (i, ni), some (j, nj)]
        ∧ referenceOf tol t.config ⟨ni.position, nj.position⟩ = .ok r
        ∧ SameBinding (t.placed ⟨i, j⟩ ⟨ni.trial, nj.trial⟩ r) (t.attach tol pair).state := by
  by_cases hpair : ∃ m n, pair = [some m, some n]
  · obtain ⟨⟨i, ni⟩, ⟨j, nj⟩, rfl⟩ := hpair
    cases href : referenceOf tol t.config ⟨ni.position, nj.position⟩ with
    | error e => exact .inl (congrArg Outcome.state (attach_of_error href))
    | ok r => exact .inr ⟨i, ni, j, nj, r, rfl, href, attach_sameBinding href⟩
  · exact .inl (congrArg Outcome.state (t.attach_of_not_pair fun m n heq => hpair ⟨m, n, heq⟩))

/-- An attachment that succeeds leaves a reference geometry with a frame. -/
theorem attach_hasFrame {pair : List (Option (ν × Node α))}
    (h : (t.attach tol pair).result = .ok ()) :
    (t.attach tol pair).state.reference.HasFrame tol := by
  by_cases hpair : ∃ m n, pair = [some m, some n]
  · obtain ⟨⟨i, ni⟩, ⟨j, nj⟩, rfl⟩ := hpair
    cases href : referenceOf tol t.config ⟨ni.position, nj.position⟩ with
    | error e =>
      rw [attach_of_error href] at h
      cases h
    | ok r =>
      rw [(attach_sameBinding href).reference, (t.places_placed _ _ r).reference]
      by_contra hframe
      obtain ⟨⟨e, he⟩, -⟩ := attach_without_frame (i := i) (j := j) href hframe
      cases he.symm.trans h
  · rw [t.attach_of_not_pair fun m n heq => hpair ⟨m, n, heq⟩] at h
    cases h

omit [Scalar α] in
theorem commit_sameBinding (t : Transformation ν α) : SameBinding t t.commit.state := by
  unfold commit
  cases t.bound? with
  | error e => exact .refl t
  | ok nodes => exact ⟨rfl, rfl, rfl, rfl, rfl, id⟩

/-- A reset keeps what is bound. -/
theorem reset_sameBinding (tol : Tolerances α) (trial : ν → Displacement α)
    (t : Transformation ν α) : SameBinding t (t.reset tol trial).state := by
  cases hbound : t.bound? with
  | error e =>
    unfold reset
    rw [hbound]
    exact .refl t
  | ok nodes =>
    cases hq : Versor.ofMatrix t.reference.axes with
    | error e =>
      unfold reset
      simp only [hbound, hq]
      exact ⟨rfl, rfl, rfl, rfl, rfl, id⟩
    | ok q =>
      have hupdate := (update_keeps tol trial (t.backAtStart q)).sameBinding
      rw [reset_of_bound hbound hq]
      refine SameBinding.andThen ?_ commit_sameBinding
      exact ⟨hupdate.config, hupdate.nodes, hupdate.capture, hupdate.initial, hupdate.reference,
        hupdate.stage⟩

end General

/-! ## Over the real numbers -/

section Reals

variable [SeriesAngle] {tol : Tolerances ℝ} {config : Configuration ℝ} {position : Ends (Vec3 ℝ)}
variable {r : Reference ℝ}

/-- **Every accepted reference geometry has a frame.** -/
theorem hasFrame_of_referenceOf (h0 : 0 ≤ tol.parallel)
    (h : referenceOf tol config position = .ok r) : r.HasFrame tol := by
  have hr := referenceOf_eq_ok h0 h
  refine ⟨⟨_, Versor.ofMatrix_eq hr.isRotation⟩, .between (.both r.axes.c2) r.chord, ?_⟩
  unfold Triad.ofReference
  simp only [Scalar.le_real]
  rw [if_neg (not_le.mpr hr.determined.length_pos)]
  exact Triad.ofAxes_eq hr.determined

/-- **With a frame an accepted reference geometry is sound**, whatever the tolerances are. -/
theorem isSound_of_hasFrame (h : referenceOf tol config position = .ok r) (hr : r.HasFrame tol) :
    r.IsSound tol position := by
  obtain ⟨offset, -, h⟩ := exists_of_bind_eq_ok h
  obtain ⟨c, hchord, h⟩ := exists_of_bind_eq_ok h
  obtain ⟨axes, haxes, h⟩ := exists_of_bind_eq_ok h
  cases h
  obtain ⟨⟨q, hq⟩, triad, htriad⟩ := hr
  obtain ⟨hvector, hlength, hpos⟩ := chord_eq_ok hchord
  unfold Triad.ofReference at htriad
  split at htriad
  · cases htriad
  · exact ⟨isRotation_of_det_pos hpos haxes (Versor.det_pos_of_ofMatrix hq),
      first_axis_of_orientation haxes, hlength, hvector, Triad.determined_of_ofAxes htriad⟩

/-- **An accepted attachment** leaves both nodes bound to the reference geometry between them,
and that is sound, whatever the tolerances are. -/
theorem attached_of_accepted {ν : Type} {t : Transformation ν ℝ} {i j : ν} {ni nj : Node ℝ}
    (h : (t.attach tol [some (i, ni), some (j, nj)]).result = .ok ()) :
    ∃ r, referenceOf tol t.config ⟨ni.position, nj.position⟩ = .ok r
      ∧ r.IsSound tol ⟨ni.position, nj.position⟩
      ∧ (t.attach tol [some (i, ni), some (j, nj)]).state
        = t.attached ⟨i, j⟩ ⟨ni.trial, nj.trial⟩ r := by
  cases href : referenceOf tol t.config ⟨ni.position, nj.position⟩ with
  | error e =>
    rw [attach_of_error href] at h
    cases h
  | ok r =>
    have hframe := attach_hasFrame h
    rw [(attach_sameBinding href).reference, (t.places_placed _ _ r).reference] at hframe
    have hr := isSound_of_hasFrame href hframe
    have hsettle : (t.placed ⟨i, j⟩ ⟨ni.trial, nj.trial⟩ r).settle tol = .ok _ () := settle_eq hr
    refine ⟨r, rfl, hr, ?_⟩
    rw [(attach_of_reference href).1, hsettle]
    rfl

end Reals

end Transformation

/-- **No operation but an attachment changes what is bound**, whether it succeeds or not. -/
theorem Call.perform_sameBinding {ν α : Type} [Scalar α] (tol : Tolerances α)
    (t : Transformation ν α) {c : Call ν α} (hc : ∀ pair, c ≠ .attach pair) :
    t.SameBinding (c.perform tol t).state := by
  cases c with
  | attach pair => exact absurd rfl (hc pair)
  | update trial => exact (t.update_keeps tol trial).sameBinding
  | commit => exact t.commit_sameBinding
  | revert trial => exact (t.revert_keeps tol trial).sameBinding
  | reset trial => exact t.reset_sameBinding tol trial

end Corotation
