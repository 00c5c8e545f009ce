import Corotation.Proofs.Transformation.Orientation
import Corotation.Proofs.Transformation.Commitment
/-!
# Updates at a degenerate geometry

An update turns both ends before it looks at the chord. Where the chord has no length, or the mean
nodal y-axis does not reach across it, the update is refused with that for its cause, and has
changed the stage, the orientations and what was seen of the nodes, and nothing else
(`update_of_isDegenerate`). No law of arithmetic is behind this: the turns and the local rotations
fail for other causes only (`isDegenerate_of_update`).

So the deformations wait, through further refusals and through commits (`Waits`), and the next
update that succeeds is measured from them. Over the real numbers it succeeds wherever the nodes
have a chord again and the mean axis reaches across it.
-/

namespace Corotation

namespace Transformation

section General

variable {ν α : Type} [Scalar α] {tol : Tolerances α} {t u v : Transformation ν α}
variable {rot : Ends (Vec3 α)} {q : Ends (Versor α)} {d : Ends (Displacement α)}
variable {cause : Degeneracy α} {nodes : Ends ν}

/-! ## The turns -/

/-- The state with both nodes turned to the orientations `q`, once the rotation components `rot`
were seen. -/
def turnedTo (t : Transformation ν α) (rot : Ends (Vec3 α)) (q : Ends (Versor α)) :
    Transformation ν α :=
  { t with stage := .initialized, seen := rot, versor := q }

/-- The rotation components `rot` turn both nodes to the orientations `q`. -/
structure TurnsTo (t : Transformation ν α) (rot : Ends (Vec3 α)) (q : Ends (Versor α)) : Prop where
  i : turned rot.i t.seen.i t.versor.i = .ok q.i
  j : turned rot.j t.seen.j t.versor.j = .ok q.j

/-- A turn is refused for an arithmetic fault only. -/
theorem turned_eq_error {alpha seen : Vec3 α} {p : Versor α} {e : Failure α}
    (h : turned alpha seen p = .error e) : e = .fault .nullVersor := by
  unfold turned Versor.compose Versor.mul at h
  simp only at h
  split_ifs at h
  exact (Except.error.inj h).symm

/-- Where both nodes are turned the turns succeed. -/
theorem TurnsTo.advance (h : t.TurnsTo rot q) :
    { t with stage := .initialized }.advance rot = .ok (t.turnedTo rot q) () := by
  unfold Transformation.advance
  simp only [h.i, h.j]
  rfl

/-- Otherwise they fail for an arithmetic fault. -/
theorem turnsTo_or (t : Transformation ν α) (rot : Ends (Vec3 α)) : (∃ q, t.TurnsTo rot q)
    ∨ ∃ u, { t with stage := .initialized }.advance rot = .fail u (.fault .nullVersor) := by
  unfold Transformation.advance
  cases hi : turned rot.i t.seen.i t.versor.i with
  | error e =>
    obtain rfl := turned_eq_error hi
    exact .inr ⟨_, rfl⟩
  | ok qi =>
    cases hj : turned rot.j t.seen.j t.versor.j with
    | error e =>
      obtain rfl := turned_eq_error hj
      exact .inr ⟨_, rfl⟩
    | ok qj => exact .inl ⟨⟨qi, qj⟩, hi, hj⟩

/-! ## Degenerate geometries -/

open Scalar

/-- How far the mean nodal y-axis reaches across the direction of the chord. -/
def reachAt (t : Transformation ν α) (d : Ends (Displacement α)) : α :=
  (((t.chordAt d).divide (t.chordAt d).norm).cross
    (Triad.meanAxis (t.nodalRotation.map Mat3.c2))).norm

/-- **Why no triad is determined** by the present orientations and the displacements `d`. -/
inductive IsDegenerate (tol : Tolerances α) (t : Transformation ν α) (d : Ends (Displacement α)) :
    Degeneracy α → Prop
  /-- The end points have come to one place. -/
  | collapsed : (t.chordAt d).norm ≤ 0 → IsDegenerate tol t d (.deformedLength t.tag)
  /-- The mean nodal y-axis is parallel to the chord. -/
  | parallel : ¬ (t.chordAt d).norm ≤ 0 → t.reachAt d ≤ tol.parallel →
      IsDegenerate tol t d .parallelMeanAxis

/-- A rotation vector is refused for an arithmetic fault only. -/
theorem rotationVector_eq_error {m : Mat3 α} {e : Failure α} (h : rotationVector m = .error e) :
    ∃ f, e = .fault f := by
  unfold rotationVector at h
  cases hq : Versor.ofMatrix m with
  | ok q =>
    rw [hq] at h
    cases h
  | error e' =>
    rw [hq] at h
    obtain rfl := Except.error.inj h
    unfold Versor.ofMatrix at hq
    split_ifs at hq
    · exact ⟨_, (Except.error.inj hq).symm⟩
    · exact ⟨_, (Except.error.inj hq).symm⟩

/-- So are the local rotations. -/
theorem localRotations_eq_error {axes : Mat3 α} {rotation : Ends (Mat3 α)} {e : Failure α}
    (h : localRotations axes rotation = .error e) : ∃ f, e = .fault f := by
  unfold localRotations at h
  cases hi : rotationVector (axes.transpose * rotation.i) with
  | error e' =>
    rw [hi] at h
    obtain rfl := Except.error.inj h
    exact rotationVector_eq_error hi
  | ok vi =>
    cases hj : rotationVector (axes.transpose * rotation.j) with
    | error e' =>
      rw [hi, hj] at h
      obtain rfl := Except.error.inj h
      exact rotationVector_eq_error hj
    | ok vj =>
      rw [hi, hj] at h
      cases h

/-- **A degenerate geometry** refuses an evaluation, which leaves the state alone. -/
theorem IsDegenerate.evaluate (h : IsDegenerate tol t d cause) :
    t.evaluate tol d = .fail t (.degenerate cause) := by
  cases h with
  | collapsed hlength => exact if_pos hlength
  | parallel hlength hreach =>
    have htriad : Triad.ofRotations tol t.nodalRotation (t.chordAt d)
        = .error (.degenerate .parallelMeanAxis) := by
      unfold Triad.ofRotations Triad.ofAxes
      exact (if_neg hlength).trans (if_pos hreach)
    unfold chordAt at hlength htriad
    simp only [Transformation.evaluate, if_neg hlength, htriad]

/-- Nothing else refuses one for such a cause. -/
theorem isDegenerate_of_evaluate
    (h : (t.evaluate tol d).result = .error (.degenerate cause)) : IsDegenerate tol t d cause := by
  by_cases hlength : (t.chordAt d).norm ≤ 0
  · have hcollapsed : IsDegenerate tol t d _ := .collapsed hlength
    rw [hcollapsed.evaluate] at h
    cases h
    exact hcollapsed
  by_cases hreach : t.reachAt d ≤ tol.parallel
  · have hparallel := IsDegenerate.parallel hlength hreach
    rw [hparallel.evaluate] at h
    cases h
    exact hparallel
  -- there is a triad, and no local rotation has a degenerate geometry for its cause
  exfalso
  obtain ⟨triad, htriad⟩ : ∃ triad,
      Triad.ofRotations tol t.nodalRotation (t.chordAt d) = .ok triad := by
    unfold Triad.ofRotations Triad.ofAxes
    exact ⟨_, (if_neg hlength).trans (if_neg hreach)⟩
  cases htheta : localRotations triad.axes t.nodalRotation with
  | error e =>
    obtain ⟨f, rfl⟩ := localRotations_eq_error htheta
    have hfault : t.evaluate tol d = .fail { t with triad } (.fault f) := by
      unfold chordAt at hlength htriad
      simp only [Transformation.evaluate, if_neg hlength, htriad, htheta]
    rw [hfault] at h
    cases h
  | ok theta =>
    have hok : t.evaluate tol d = .ok _ () :=
      evaluate_eq_ok_iff.mpr ⟨triad, theta, hlength, htriad, htheta, rfl⟩
    rw [hok] at h
    cases h

/-! ## Updates -/

omit [Scalar α] in
/-- Nodes are refused for one cause only. -/
theorem bound?_eq_error {e : Failure α} (h : t.bound? = .error e) : e = .uninitialized t.tag := by
  unfold bound? at h
  split at h
  · exact (Except.error.inj h).symm
  · cases h
  · exact (Except.error.inj h).symm

/-- **An update at a degenerate geometry** turns both nodes and is refused. -/
theorem update_of_isDegenerate (hbound : t.bound? = .ok nodes) {trial : ν → Displacement α}
    (hd : t.displacement (nodes.map trial) = d) (hturns : t.TurnsTo (d.map Screw.rot) q)
    (h : IsDegenerate tol (t.turnedTo (d.map Screw.rot) q) d cause) :
    t.update tol trial = .fail (t.turnedTo (d.map Screw.rot) q) (.degenerate cause) := by
  rw [update_of_bound hbound, hd, hturns.advance, Outcome.ok_andThen, h.evaluate]

/-- Nothing else refuses one for such a cause. -/
theorem isDegenerate_of_update {trial : ν → Displacement α}
    (h : (t.update tol trial).result = .error (.degenerate cause)) :
    ∃ nodes q, t.bound? = .ok nodes ∧
      let d := t.displacement (nodes.map trial)
      t.TurnsTo (d.map Screw.rot) q
        ∧ IsDegenerate tol (t.turnedTo (d.map Screw.rot) q) d cause := by
  cases hbound : t.bound? with
  | error e =>
    -- that the nodes are not bound is another cause
    have hupdate : t.update tol trial = .fail t e := by
      unfold update
      rw [hbound]
    rw [hupdate, bound?_eq_error hbound] at h
    cases h
  | ok nodes =>
    rw [update_of_bound hbound] at h
    rcases t.turnsTo_or ((t.displacement (nodes.map trial)).map Screw.rot) with
      ⟨q, hturns⟩ | ⟨u, hadvance⟩
    · rw [hturns.advance, Outcome.ok_andThen] at h
      exact ⟨nodes, q, rfl, hturns, isDegenerate_of_evaluate h⟩
    · rw [hadvance, Outcome.fail_andThen] at h
      cases h

/-- An update that succeeds takes the deformations of before for the previous ones. -/
theorem previous_of_update {trial : ν → Displacement α} (h : t.update tol trial = .ok u ()) :
    u.previous = t.deformation := by
  cases hbound : t.bound? with
  | error e =>
    unfold update at h
    rw [hbound] at h
    cases congrArg Outcome.result h
  | ok nodes =>
    rcases update_outcome tol hbound trial with ⟨q, v, heval, heq⟩ | ⟨_, _, _, e, heq⟩
    · obtain rfl : v = u := congrArg Outcome.state (heq.symm.trans h)
      obtain ⟨_, _, -, -, -, rfl⟩ := evaluate_eq_ok_iff.mp heval
      rfl
    · cases congrArg Outcome.result (heq.symm.trans h)

/-! ## Waiting -/

/-- **A wait**: updates that are refused at degenerate geometries, and commits. -/
inductive Waits (tol : Tolerances α) (t : Transformation ν α) : Transformation ν α → Prop
  /-- Nothing was done yet. -/
  | refl : Waits tol t t
  /-- A further update was refused. -/
  | refused {u : Transformation ν α} {trial : ν → Displacement α} {cause : Degeneracy α} :
      Waits tol t u → (u.update tol trial).result = .error (.degenerate cause) →
      Waits tol t (u.update tol trial).state
  /-- The state was committed. -/
  | commit {u : Transformation ν α} : Waits tol t u → Waits tol t u.commit.state

/-- One wait after another is a wait. -/
theorem Waits.trans (h : Waits tol t u) (h' : Waits tol u v) : Waits tol t v := by
  induction h' with
  | refl => exact h
  | refused _ hrefused ih => exact ih.refused hrefused
  | commit _ ih => exact ih.commit

/-- The nodes stay bound. -/
theorem Waits.bound? (h : Waits tol t u) (hbound : t.bound? = .ok nodes) :
    u.bound? = .ok nodes := by
  induction h with
  | refl => exact hbound
  | @refused u trial _ _ _ ih => exact (u.update_keeps tol trial).bound? ih
  | commit _ ih =>
    rw [commit_of_bound ih]
    exact ih

/-- **The deformations wait.** -/
theorem Waits.deformation (h : Waits tol t u) : u.deformation = t.deformation := by
  induction h with
  | refl => rfl
  | refused _ hrefused ih =>
    obtain ⟨nodes, q, hbound, hturns, hdegenerate⟩ := isDegenerate_of_update hrefused
    rw [update_of_isDegenerate hbound rfl hturns hdegenerate]
    exact ih
  | @commit u _ ih =>
    unfold Transformation.commit
    cases u.bound? <;> exact ih

/-- So an update after a wait is measured from what was there before it. -/
theorem Waits.variation_of_update (h : Waits tol t u) {trial : ν → Displacement α}
    (hupdate : u.update tol trial = .ok v ()) :
    v.variation = ElementVector.sub v.deformation t.deformation := by
  rw [variation, previous_of_update hupdate, h.deformation]

/-- **All that a refused update has done** where its cause is a degenerate geometry: both ends are
turned to where the nodes are. The geometry at the turned ends is degenerate for that cause, and
after a wait the next update that succeeds is measured from the deformations of before. -/
theorem refused_update_waits {trial : ν → Displacement α}
    (h : (t.update tol trial).result = .error (.degenerate cause)) :
    ∃ nodes q, t.bound? = .ok nodes ∧
      let d := t.displacement (nodes.map trial)
      let t' := { t with stage := .initialized, seen := d.map Screw.rot, versor := q }
      turned d.i.rot t.seen.i t.versor.i = .ok q.i
        ∧ turned d.j.rot t.seen.j t.versor.j = .ok q.j
        ∧ IsDegenerate tol t' d cause ∧ t.update tol trial = .fail t' (.degenerate cause)
        ∧ ∀ u, Waits tol t' u → ∀ trial' v, u.update tol trial' = .ok v () →
          v.variation = ElementVector.sub v.deformation t.deformation := by
  obtain ⟨nodes, q, hbound, hturns, hdegenerate⟩ := isDegenerate_of_update h
  exact ⟨nodes, q, hbound, hturns.i, hturns.j, hdegenerate,
    update_of_isDegenerate hbound rfl hturns hdegenerate,
    fun u hwaits trial' v hupdate => hwaits.variation_of_update hupdate⟩

end General

/-! ## Over the real numbers -/

variable [SeriesAngle] {ν : Type} {tol : Tolerances ℝ} {t u : Transformation ν ℝ}
variable {d : Ends (Displacement ℝ)} {nodes : Ends ν}

/-- The mean axis reaches across the chord along the normal of their plane. -/
theorem reachAt_eq (t : Transformation ν ℝ) (d : Ends (Displacement ℝ)) :
    t.reachAt d = (Triad.normal t.nodalAxes (t.deformedChord d)).norm := by
  unfold reachAt
  rw [Vec3.divide_eq_smul]
  rfl

/-- A wait keeps the orientations versors. -/
theorem Waits.hasVersors (h : Waits tol t u) (ht : t.HasVersors) : u.HasVersors := by
  induction h with
  | refl => exact ht
  | refused _ _ ih => exact ih.update _
  | commit _ ih => exact ih.commit

/-- **An evaluation succeeds** where there is a chord, and the mean axis reaches across it by more
than the tolerance. -/
theorem evaluate_of_reach (h : t.HasVersors) (hlength : 0 < (t.chordAt d).norm)
    (hreach : 0 < t.reachAt d) (hlimit : tol.parallel < t.reachAt d) :
    t.evaluate tol d = .ok (t.evaluated d tol) () := by
  rw [reachAt_eq] at hreach hlimit
  have hdetermined : Determines tol t d := ⟨hlength, hlimit⟩
  -- a tolerance of zero determines the same triad, so its axes are a rotation in any case
  have hexact : Determines { tol with parallel := 0 } t d := ⟨hlength, hreach⟩
  have haxes : (t.deformedTriad d).axes.IsRotation :=
    (Triad.isFrame_between le_rfl hexact).isRotation
  exact evaluate_of_isRotation h hdetermined haxes

/-- **So does an update**, at the state that it has turned. -/
theorem update_of_reach (h : t.HasVersors) (hbound : t.bound? = .ok nodes)
    {trial : ν → Displacement ℝ} (hd : t.displacement (nodes.map trial) = d)
    (hlength : 0 < ((t.moved (d.map Screw.rot)).chordAt d).norm)
    (hreach : 0 < (t.moved (d.map Screw.rot)).reachAt d)
    (hlimit : tol.parallel < (t.moved (d.map Screw.rot)).reachAt d) :
    t.update tol trial = .ok ((t.moved (d.map Screw.rot)).evaluated d tol) () := by
  rw [update_of_bound hbound, hd, advance_eq h, Outcome.ok_andThen]
  exact evaluate_of_reach (h.moved _) hlength hreach hlimit

/-- **The first update after a wait** succeeds where the nodes have a chord again and the mean axis
reaches across it, and is measured from the deformations before the refusal. -/
theorem update_after_wait (hversors : t.HasVersors) {trial : ν → Displacement ℝ}
    {cause : Degeneracy ℝ} (h : (t.update tol trial).result = .error (.degenerate cause))
    (hwaits : Waits tol (t.update tol trial).state u) :
    ∃ nodes, u.bound? = .ok nodes ∧ ∀ trial',
      let d := u.displacement (nodes.map trial')
      let u' := u.moved (d.map Screw.rot)
      0 < (u'.chordAt d).norm → 0 < u'.reachAt d → tol.parallel < u'.reachAt d →
      u.update tol trial' = .ok (u'.evaluated d tol) ()
        ∧ (u'.evaluated d tol).variation
          = ElementVector.sub (u'.localDeformation d) t.deformation := by
  obtain ⟨nodes, q, hbound, -⟩ := isDegenerate_of_update h
  have hbound' := hwaits.bound? ((t.update_keeps tol trial).bound? hbound)
  refine ⟨nodes, hbound', ?_⟩
  intro trial' d u' hlength hreach hlimit
  have hupdate : u.update tol trial' = .ok (u'.evaluated d tol) () :=
    update_of_reach (hwaits.hasVersors (hversors.update trial)) hbound' rfl hlength hreach hlimit
  have hwaits' : Waits tol t u := (Waits.refl.refused h).trans hwaits
  exact ⟨hupdate, hwaits'.variation_of_update hupdate⟩

end Transformation

namespace Session

open Transformation (IsDegenerate Waits turned)

/-- **An update at a degenerate geometry waits.** Over any scalars and in every state, an update
that is refused for a degenerate geometry has brought the orientations of both ends, the stage and
what was seen of the nodes to where the nodes are, and nothing else is changed: neither what is
committed nor the reference, the capture, the deformations, the lengths, the arms, the tangent and
the triad. The geometry at the turned ends is degenerate for that cause. After further refusals
and commits the next update that succeeds is measured from the deformations of before. Over the
real numbers, after any run, it succeeds where the nodes have a chord and the mean nodal y-axis
reaches across it by more than the tolerance. -/
theorem degenerate_update_waits :
    (∀ {ν α : Type} [Scalar α] (tol : Tolerances α) (t : Transformation ν α)
        (trial : ν → Displacement α) (cause : Degeneracy α),
      (t.update tol trial).result = .error (.degenerate cause) →
      ∃ nodes q, t.bound? = .ok nodes ∧
        let d := t.displacement (nodes.map trial)
        let t' := { t with stage := .initialized, seen := d.map Screw.rot, versor := q }
        turned d.i.rot t.seen.i t.versor.i = .ok q.i
          ∧ turned d.j.rot t.seen.j t.versor.j = .ok q.j
          ∧ IsDegenerate tol t' d cause ∧ t.update tol trial = .fail t' (.degenerate cause)
          ∧ ∀ u, Waits tol t' u → ∀ trial' v, u.update tol trial' = .ok v () →
            v.variation = ElementVector.sub v.deformation t.deformation)
      ∧ ∀ [SeriesAngle] {ν : Type} (tol : Tolerances ℝ) (config : Configuration ℝ)
        (calls : List (Call ν ℝ)) (trial : ν → Displacement ℝ) (cause : Degeneracy ℝ),
      let t := (run tol config calls).transformation
      (t.update tol trial).result = .error (.degenerate cause) →
      ∀ u, Waits tol (t.update tol trial).state u → ∃ nodes, u.bound? = .ok nodes ∧ ∀ trial',
        let d := u.displacement (nodes.map trial')
        let u' := u.moved (d.map Screw.rot)
        0 < (u'.chordAt d).norm → 0 < u'.reachAt d → tol.parallel < u'.reachAt d →
        u.update tol trial' = .ok (u'.evaluated d tol) ()
          ∧ (u'.evaluated d tol).variation
            = ElementVector.sub (u'.localDeformation d) t.deformation :=
  ⟨fun _ _ _ _ h => Transformation.refused_update_waits h,
    fun tol config calls _ _ h _ hwaits =>
      Transformation.update_after_wait (run_hasVersors tol config calls) h hwaits⟩

/-! ### A straight element -/

section Straight

open Transformation (twist twisted)

variable [SeriesAngle] {tol : Tolerances ℝ} {t : Transformation Bool ℝ}

/-- The end node of the straight element comes to the other one, and both turn as in its twist. -/
noncomputable def twistedCollapse : Ends (Displacement ℝ) :=
  ⟨⟨0, ⟨1, 0, 0⟩⟩, ⟨⟨-1, 0, 0⟩, ⟨-1, 0, 0⟩⟩⟩

/-- The straight element lies along the first axis, and nothing is deformed when it is bound. -/
theorem straight_attached_axis (h0 : 0 ≤ tol.parallel) (h1 : tol.parallel < 1) :
    let t := (run tol straight [.attach [some (false, .ofPosition .null 0),
      some (true, .ofPosition .null ⟨1, 0, 0⟩)]]).transformation
    t.reference.axes.c1 = ⟨1, 0, 0⟩ ∧ t.deformation = 0 := by
  intro t
  obtain ⟨r, href, -, haxis⟩ := straight_reference h0 h1
  have hattached : t = (Transformation.ofConfiguration straight : Transformation Bool ℝ).attached
      ⟨false, true⟩ (.both 0) r := run_attach h0 (.ofPosition .null 0) _ href
  rw [hattached]
  exact ⟨haxis, rfl⟩

/-- It refuses to collapse for that cause, once it has turned its nodes. -/
theorem update_twistedCollapse (h : t.IsSound tol ⟨0, ⟨1, 0, 0⟩⟩)
    (hbound : t.IsBound ⟨false, true⟩) (hoffset : t.reference.offset = .both 0)
    (hinitial : t.initial = .both 0) : t.update tol (pairTrial twistedCollapse)
      = .fail (t.moved (twistedCollapse.map Screw.rot)) (.degenerate (.deformedLength t.tag)) := by
  have hd : t.displacement ((⟨false, true⟩ : Ends Bool).map (pairTrial twistedCollapse))
      = twistedCollapse := by
    rw [Transformation.displacement, hinitial]
    exact sub_zero twistedCollapse
  have hturns : t.TurnsTo (twistedCollapse.map Screw.rot)
      (t.moved (twistedCollapse.map Screw.rot)).versor :=
    ⟨Transformation.turned_eq h.versors.trial_i _ _, Transformation.turned_eq h.versors.trial_j _ _⟩
  have hchord : (t.moved (twistedCollapse.map Screw.rot)).deformedChord twistedCollapse = 0 := by
    have hreference : (t.moved (twistedCollapse.map Screw.rot)).reference.IsSound tol
      ⟨0, ⟨1, 0, 0⟩⟩ := h.reference
    rw [Transformation.deformedChord_eq hreference,
      Transformation.deformedArm_of_offset (t := t.moved _) hoffset]
    ext <;> simp [twistedCollapse, Ends.both]
  have hlength : ((t.moved (twistedCollapse.map Screw.rot)).deformedChord twistedCollapse).norm
      ≤ 0 := by
    rw [hchord, Vec3.norm_zero]
  exact Transformation.update_of_isDegenerate hbound.bound? hd hturns
    (.collapsed (Scalar.le_real.mpr hlength))

/-- From there its twist has its chord back, and the mean axis reaches across it. -/
theorem twisted_determines (h0 : 0 ≤ tol.parallel) (hcos : tol.parallel < Real.cos 1)
    (hs0 : 0 ≤ SeriesAngle.angle) (hs1 : SeriesAngle.angle < 1)
    (h : t.IsSound tol ⟨0, ⟨1, 0, 0⟩⟩) (hoffset : t.reference.offset = .both 0)
    (hseen : t.seen = .both 0) (hrotation : t.nodalRotation = .both t.reference.axes)
    (haxis : t.reference.axes.c1 = ⟨1, 0, 0⟩) :
    let u := (t.moved (twistedCollapse.map Screw.rot)).snapshot.moved
      (Ends.map Screw.rot (twisted 1))
    Transformation.Determines tol u (twisted 1) ∧ u.localDeformation (twisted 1) = twisted 1 := by
  intro u
  have haxes (b : ℝ) : t.reference.axes.apply ⟨b, 0, 0⟩ = ⟨b, 0, 0⟩ := by
    rw [Mat3.apply_columns, haxis]
    ext <;> simp
  have htwist : twist u.reference.axes 1 = twisted 1 := by
    change twist t.reference.axes 1 = _
    rw [twist, haxes, haxes]
    rfl
  have hmoved : u.nodalRotation = (twist u.reference.axes 1).map
      fun d => (Versor.turn d.rot).toMatrix * u.reference.axes := by
    have hfirst : (t.moved (twistedCollapse.map Screw.rot)).snapshot.nodalRotation
        = twistedCollapse.map fun d => (Versor.turn d.rot).toMatrix * t.reference.axes := by
      change (t.moved _).nodalRotation = _
      rw [Transformation.moved_nodalRotation, hseen, hrotation]
      simp [Ends.both, Ends.map]
    -- nothing more is turned
    rw [htwist, Transformation.moved_nodalRotation, hfirst]
    simp [twistedCollapse, twisted, Ends.map, Transformation.snapshot, Transformation.moved,
      Versor.turn_zero, Versor.toMatrix_identity, u]
  have hr : u.reference.IsSound tol ⟨0, ⟨1, 0, 0⟩⟩ := h.reference
  have htriad := Transformation.twisted_triad hr hoffset hmoved hs0 hs1 h0 hcos
  have hlocal := Transformation.localDeformation_twisted hr hoffset hmoved hs0 hs1
    (by linarith [Real.two_le_pi]) h0 hcos
  rw [htwist] at htriad hlocal
  exact ⟨htriad.1, hlocal⟩

omit [SeriesAngle] in
/-- The straight element collapses with its nodes turned, is committed there, and is found twisted
when its nodes are apart again. The twist is measured from the undeformed state. -/
theorem degenerate_update_waits_twisted :
    letI : SeriesAngle := .exact
    let t := (run .standard straight [.attach [some (false, .ofPosition .null 0),
      some (true, .ofPosition .null ⟨1, 0, 0⟩)]]).transformation
    let o := t.update .standard (pairTrial twistedCollapse)
    o.result = .error (.degenerate (.deformedLength t.tag))
      ∧ o.state.seen = ⟨⟨1, 0, 0⟩, ⟨-1, 0, 0⟩⟩ ∧ o.state.triad = t.triad
      ∧ o.state.committedVersor = t.committedVersor
      ∧ ∃ v, o.state.commit.state.update .standard (pairTrial (twisted 1)) = .ok v ()
        ∧ v.variation = twisted 1 := by
  let _ : SeriesAngle := .exact
  intro t o
  have h0 := Tolerances.standard_admissible_exact.parallel_nonneg
  obtain ⟨hsound, hbound, hoffset, hinitial, hseen, hrotation⟩ :=
    straight_attached h0 standard_parallel_lt_one
  obtain ⟨haxis, hnothing⟩ := straight_attached_axis h0 standard_parallel_lt_one
  have ho : o = .fail (t.moved (twistedCollapse.map Screw.rot)) _ :=
    update_twistedCollapse hsound hbound hoffset hinitial
  have hrefused : o.result = .error (.degenerate (.deformedLength t.tag)) :=
    congrArg Outcome.result ho
  -- what the refusal has left alone
  obtain ⟨nodes, q, hnodes, -, -, -, hstate, -⟩ := degenerate_update_waits.1 _ t _ _ hrefused
  obtain rfl : nodes = ⟨false, true⟩ := Except.ok.inj (hnodes.symm.trans hbound.bound?)
  have hleft : o.state = _ := congrArg Outcome.state hstate
  -- the state that was committed, and its next update
  have hwaits : Waits .standard o.state o.state.commit.state := Waits.refl.commit
  have hmoved : (t.moved (twistedCollapse.map Screw.rot)).bound? = .ok ⟨false, true⟩ :=
    Transformation.bound?_eq_ok_iff.mpr ⟨nofun, hbound.nodes⟩
  have hu : o.state.commit.state = (t.moved (twistedCollapse.map Screw.rot)).snapshot := by
    rw [ho, Outcome.fail, Transformation.commit_of_bound hmoved]
    rfl
  obtain ⟨nodes, hnodes', hlater⟩ :=
    degenerate_update_waits.2 .standard straight _ _ _ hrefused _ hwaits
  rw [hu] at hnodes' hlater ⊢
  obtain rfl : nodes = ⟨false, true⟩ := Except.ok.inj (hnodes'.symm.trans hmoved)
  have hd : (t.moved (twistedCollapse.map Screw.rot)).snapshot.displacement
      ((⟨false, true⟩ : Ends Bool).map (pairTrial (twisted 1))) = twisted 1 := by
    change (twisted 1 : Ends (Displacement ℝ)) - t.initial = _
    rw [hinitial]
    exact sub_zero _
  obtain ⟨hdetermines, hlocal⟩ := twisted_determines h0 Tolerances.standard_parallel_lt_cos le_rfl
    one_pos hsound hoffset hseen hrotation haxis
  have hacross := hdetermines.across
  rw [← Transformation.reachAt_eq] at hacross
  have hupdate := hlater (pairTrial (twisted 1))
  rw [hd] at hupdate
  obtain ⟨hok, hvariation⟩ := hupdate hdetermines.length_pos (h0.trans_lt hacross) hacross
  have hseen' : o.state.seen = twistedCollapse.map Screw.rot := by rw [ho]; rfl
  refine ⟨hrefused, hseen', (congrArg Transformation.triad hleft).trans rfl,
    (congrArg Transformation.committedVersor hleft).trans rfl, _, hok, ?_⟩
  rw [hvariation, hlocal, hnothing]
  exact sub_zero _

end Straight

end Session

end Corotation
