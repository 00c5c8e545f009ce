import Corotation.Proofs.Transformation.Currency
/-!
# The trails of the nodal rotations

The orientation of a node is set when the nodes are bound, when the transformation
goes back to its start, and when it goes back to its commit. From there on every
update turns it by the difference between what the node reports and what it had
reported, from the left, whether a triad is found after that or not.

A `Trail` notes no more than that of one node: the orientation set last, the
rotational part that goes with it, and the rotational parts reported since. An
observer of a run can keep the trails of both nodes (`noteTrails`). The orientations
of the transformation are those of the trails after any run (`run_follows`): no
increment is lost, applied twice or applied at the other end.
-/

namespace Corotation

/-- The way of a node's rotational part since its orientation was set last. -/
structure Trail where
  /-- The orientation that was set. -/
  anchor : Versor ℝ
  /-- The rotational part that goes with it. -/
  origin : Vec3 ℝ
  /-- The rotational parts reported since, the latest one at the end. -/
  values : List (Vec3 ℝ)

namespace Trail

variable [SeriesAngle] (p : Trail) (a : Vec3 ℝ)

/-- The trail after one more report. -/
def extend : Trail := { p with values := p.values ++ [a] }

/-- The rotational part reported last. -/
def latest : Vec3 ℝ := p.values.getLastD p.origin

omit [SeriesAngle] in
theorem extend_latest : (p.extend a).latest = a := by simp [extend, latest]

/-- The differences from one report to the next. -/
noncomputable def increments : List (Vec3 ℝ) := List.zipWith (· - ·) p.values (p.origin :: p.values)

/-- One more report adds one increment at the end. -/
theorem extend_increments : (p.extend a).increments = p.increments ++ [a - p.latest] := by
  obtain ⟨q, origin, values⟩ := p
  simp only [extend, increments, latest]
  induction values generalizing origin with
  | nil => rfl
  | cons b values ih =>
    simp only [List.cons_append, List.zipWith_cons_cons, ih b, List.getLastD_cons]

/-- The increments add up to the whole way. -/
theorem sum_increments : p.increments.sum = p.latest - p.origin := by
  obtain ⟨q, origin, values⟩ := p
  induction values using List.reverseRecOn with
  | nil => exact (sub_self origin).symm
  | append_singleton values b ih =>
    change (extend ⟨q, origin, values⟩ b).increments.sum = (extend ⟨q, origin, values⟩ b).latest - _
    rw [extend_increments, extend_latest, List.sum_append, ih, List.sum_singleton]
    change (Trail.latest _ - origin) + (b - Trail.latest _) = b - origin
    abel

/-- The orientation after all increments, each applied from the left. -/
noncomputable def orientation : Versor ℝ :=
  p.increments.foldl (fun q v => Versor.hamilton (Versor.turn v) q) p.anchor

/-- One more report turns the orientation by its increment. -/
theorem extend_orientation : (p.extend a).orientation
    = Versor.hamilton (Versor.turn (a - p.latest)) p.orientation := by
  rw [orientation, extend_increments, List.foldl_append]
  rfl

/-- The matrix of the orientation is the product of the turns and the anchor, the
later turn to the left of the earlier one. -/
theorem toMatrix_orientation : p.orientation.toMatrix
    = (p.increments.map fun v => (Versor.turn v).toMatrix).reverse.prod * p.anchor.toMatrix := by
  rw [orientation, Versor.toMatrix_foldl_turn]

/-- **With exact rotations** that is the product of the exponentials. -/
theorem entries_orientation (hexact : SeriesAngle.angle = 0) : p.orientation.toMatrix.entries
    = (p.increments.map fun v => NormedSpace.exp (Mat3.skew v).entries).reverse.prod
      * p.anchor.toMatrix.entries := by
  have hprod (ms : List (Mat3 ℝ)) : ms.prod.entries = (ms.map Mat3.entries).prod := by
    induction ms with
    | nil => exact Mat3.entries_one
    | cons m ms ih => rw [List.prod_cons, Mat3.entries_mul, ih, List.map_cons, List.prod_cons]
  have hturns : (p.increments.map fun v => (Versor.turn v).toMatrix).map Mat3.entries
      = p.increments.map fun v => NormedSpace.exp (Mat3.skew v).entries := by
    rw [List.map_map]
    exact List.map_congr_left fun v _ => Versor.turn_eq_exp hexact v
  rw [toMatrix_orientation, Mat3.entries_mul, hprod, List.map_reverse, hturns]

end Trail

/-! ## The trails of a run -/

/-- What an observer notes of the rotations in a run. -/
structure Trails where
  /-- The trails of both nodes. -/
  trial : Ends Trail
  /-- The orientations at the latest commit. -/
  committed : Ends (Versor ℝ)

namespace Trails

variable [SeriesAngle]

/-- Before anything is initialized. -/
noncomputable def start : Trails := ⟨.both ⟨.identity, 0, []⟩, .both .identity⟩

/-- Both nodes report. -/
def follow (p : Trails) (rot : Ends (Vec3 ℝ)) : Trails :=
  { p with trial := p.trial.zipWith Trail.extend rot }

/-- The present orientations are committed. -/
noncomputable def commit (p : Trails) : Trails :=
  { p with committed := p.trial.map Trail.orientation }

/-- Both nodes at an orientation, from no rotation on. -/
noncomputable def anchor (p : Trails) (q : Versor ℝ) : Trails :=
  { p with trial := .both ⟨q, 0, []⟩ }

/-- Both nodes at the committed orientations, from what they report on. -/
def back (p : Trails) (rot : Ends (Vec3 ℝ)) : Trails :=
  { p with trial := p.committed.zipWith (fun q a => ⟨q, a, []⟩) rot }

end Trails

namespace Transformation

variable {ν α : Type} [Scalar α]

/-- The rotational parts that the bound nodes report, less what was captured. -/
def reportedRotation (t : Transformation ν α) (nodes : Ends ν) (trial : ν → Displacement α) :
    Ends (Vec3 α) := (t.displacement (nodes.map trial)).map Screw.rot

end Transformation

namespace Session

variable [SeriesAngle] {ν : Type} {tol : Tolerances ℝ}

/-- What an observer of a run notes at an operation. An attachment that is accepted and
a reset set both orientations to that of the reference, and a revert to those of the
commit. Updates, reverts and resets are reports, accepted or not. Before the nodes are
bound there is nothing to note. -/
noncomputable def noteTrails (tol : Tolerances ℝ) (s : Session ν ℝ) (p : Trails) (c : Call ν ℝ) :
    Trails :=
  let t := s.transformation
  let o := c.perform tol t
  match c, o.result, t.bound? with
  | .attach _, .ok _, _ => (p.anchor (.ofRotation o.state.reference.axes)).commit
  | .attach _, .error _, _ => p
  | .update trial, _, .ok nodes => p.follow (t.reportedRotation nodes trial)
  | .commit, _, .ok _ => p.commit
  | .revert trial, _, .ok nodes =>
    let rot := t.reportedRotation nodes trial
    (p.back rot).follow rot
  | .reset trial, result, .ok nodes =>
    let p := (p.anchor (.ofRotation t.reference.axes)).follow (t.reportedRotation nodes trial)
    if result.isOk then p.commit else p
  | _, _, .error _ => p

/-- The trails of the nodal rotations in a run. -/
noncomputable def trails (tol : Tolerances ℝ) (config : Configuration ℝ) (calls : List (Call ν ℝ)) :
    Trails := observed tol config (noteTrails tol) .start calls

end Session

namespace Transformation

variable [SeriesAngle] {ν : Type} {tol : Tolerances ℝ} {t : Transformation ν ℝ} {p : Trails}
variable {nodes : Ends ν} {position : Ends (Vec3 ℝ)}

/-- The orientations of a transformation are those of the trails, and it has seen what
they ended with. -/
structure Follows (t : Transformation ν ℝ) (p : Trails) : Prop where
  versor : t.versor = p.trial.map Trail.orientation
  seen : t.seen = p.trial.map Trail.latest
  committed : t.committedVersor = p.committed

/-- A transformation with the same orientations follows the same trails. -/
theorem Follows.congr {u : Transformation ν ℝ} (h : t.Follows p) (hversor : u.versor = t.versor)
    (hseen : u.seen = t.seen) (hcommitted : u.committedVersor = t.committedVersor) : u.Follows p :=
  ⟨hversor.trans h.versor, hseen.trans h.seen, hcommitted.trans h.committed⟩

/-- The turns follow the report. -/
theorem Follows.moved (h : t.Follows p) (rot : Ends (Vec3 ℝ)) :
    (t.moved rot).Follows (p.follow rot) where
  versor := by
    refine Ends.ext ?_ ?_
    · change Versor.hamilton (Versor.turn (rot.i - t.seen.i)) t.versor.i
        = (p.trial.i.extend rot.i).orientation
      rw [Trail.extend_orientation, h.versor, h.seen]
      rfl
    · change Versor.hamilton (Versor.turn (rot.j - t.seen.j)) t.versor.j
        = (p.trial.j.extend rot.j).orientation
      rw [Trail.extend_orientation, h.versor, h.seen]
      rfl
  seen := Ends.ext (Trail.extend_latest _ _).symm (Trail.extend_latest _ _).symm
  committed := h.committed

/-- **An update follows the report**, whether it succeeds or not. -/
theorem Follows.update (h0 : 0 ≤ tol.parallel) (h : t.Follows p) (hversors : HasVersors t)
    (hbound : IsBound t nodes) (trial : ν → Displacement ℝ) :
    (t.update tol trial).state.Follows (p.follow (t.reportedRotation nodes trial)) := by
  rcases update_cases h0 hversors hbound trial with ⟨-, heq⟩ | ⟨-, e, heq⟩ <;> rw [heq]
  · exact (h.moved _).congr rfl rfl rfl
  · exact h.moved _

/-- A commit keeps the orientations that it commits. -/
theorem Follows.commit (h : t.Follows p) : t.snapshot.Follows p.commit :=
  ⟨h.versor, h.seen, h.versor⟩

/-- **A revert goes on from the commit.** -/
theorem Follows.revert (h0 : 0 ≤ tol.parallel) (h : t.Follows p) (hversors : HasVersors t)
    (hbound : IsBound t nodes) (trial : ν → Displacement ℝ) :
    let rot := t.reportedRotation nodes trial
    (t.revert tol trial).state.Follows ((p.back rot).follow rot) := by
  intro rot
  have hrestored : (t.restore (nodes.map trial)).Follows (p.back rot) :=
    ⟨h.committed, rfl, h.committed⟩
  rw [revert_of_bound hbound.bound?]
  exact hrestored.update h0 (hversors.restore _) ⟨hbound.stage, hbound.nodes⟩ trial

/-- **A reset goes on from the reference**, and commits if it succeeds. -/
theorem Follows.reset (h0 : 0 ≤ tol.parallel) (h : t.Follows p) (hsound : t.IsSound tol position)
    (hbound : IsBound t nodes) (trial : ν → Displacement ℝ) :
    let p' := (p.anchor (.ofRotation t.reference.axes)).follow (t.reportedRotation nodes trial)
    (t.reset tol trial).state.Follows
      (if (t.reset tol trial).result.isOk then p'.commit else p') := by
  intro p'
  have hq := Versor.ofRotation_square hsound.reference.isRotation
  set q := Versor.ofRotation t.reference.axes
  have hstart : (t.backAtStart q).Follows (p.anchor q) := ⟨rfl, rfl, h.committed⟩
  have hversors : HasVersors (t.backAtStart q) := hsound.versors.backAtStart hq
  have hbound' : IsBound (t.backAtStart q) nodes := ⟨hbound.stage, hbound.nodes⟩
  -- the commit at the end is reached only where the update succeeds
  have hupdate := hstart.update h0 hversors hbound' trial
  have hcases := update_isCurrent_or h0 hversors hbound' trial
  rw [reset_of_bound hbound.bound? (Versor.ofMatrix_eq hsound.reference.isRotation)]
  rcases hcases with ⟨u, heq, hu, -⟩ | ⟨u, heq, -⟩
  · rw [heq] at hupdate
    rw [heq, Outcome.ok_andThen, commit_of_bound hu.bound?]
    exact hupdate.commit
  · rw [heq] at hupdate
    rw [heq, Outcome.fail_andThen]
    exact hupdate

/-! ## Repeated updates -/

/-- Nodes that report what was seen do not turn. -/
theorem moved_seen (t : Transformation ν ℝ) :
    t.moved t.seen = { t with stage := .initialized } := by
  rw [moved, sub_self, sub_self, Versor.turn_zero, Versor.hamilton_identity,
    Versor.hamilton_identity]

/-- **An update of a current state at the same displacements** finds the same. -/
theorem IsCurrent.update (h0 : 0 ≤ tol.parallel) {d : Ends (Displacement ℝ)} (h : IsCurrent tol t d)
    (hversors : HasVersors t) (hbound : IsBound t nodes) {trial : ν → Displacement ℝ}
    (hd : t.displacement (nodes.map trial) = d) :
    t.update tol trial = .ok { t with previous := t.deformation } () := by
  -- what the nodes report was seen already, so there is no increment left
  have hmoved : t.moved (d.map Screw.rot) = { t with stage := .initialized } := by
    rw [← h.seen, moved_seen]
  have htangent : t.tangent = some (t.tangentMap tol) := by
    have hT := h.tangent
    unfold tangent? at hT
    rw [h.stage] at hT
    cases hcase : t.tangent with
    | none =>
      simp only [hcase] at hT
      cases hT
    | some T =>
      simp only [hcase] at hT
      cases hT
      rfl
  have hdet : Determines tol (t.moved (d.map Screw.rot)) d := by
    rw [hmoved]
    exact h.determines
  have hT : t.tangentMap tol = ElementMatrix.mul
      ((t.deformedTriad d).deformationTangent tol (t.localDeformation d)) (link t.deformedArm) := by
    rw [tangentMap, h.triad, h.deformation, h.arm]
  rw [update_of_determines h0 hversors hbound hd hdet, hmoved]
  exact congrArg (Outcome.ok · ()) (Transformation.ext rfl rfl h.stage.symm rfl rfl rfl
    h.length.symm h.arm.symm h.triad.symm rfl rfl rfl h.deformation.symm rfl rfl
    (htangent.trans (congrArg some hT)).symm)

/-- **A refused update at the same displacements** is refused again, for the same
reason. -/
theorem IsRefused.update {d : Ends (Displacement ℝ)} (h : IsRefused tol t d)
    (hversors : HasVersors t) (hbound : IsBound t nodes) {trial : ν → Displacement ℝ}
    (hd : t.displacement (nodes.map trial) = d) : t.update tol trial = .fail t (t.refusal d) := by
  have hmoved : t.moved (d.map Screw.rot) = t := by
    rw [← h.seen, moved_seen, ← h.stage]
  rw [update_eq hversors hbound, hd, hmoved]
  exact evaluate_of_not_determines h.not_determines

end Transformation

namespace Session

open Transformation (twisted)

variable [SeriesAngle] {ν : Type} {tol : Tolerances ℝ} {s : Session ν ℝ} {p : Trails}

/-! ## Trails of runs -/

/-- An attachment sets both orientations, if it is accepted. -/
theorem attach_follows (h0 : 0 ≤ tol.parallel) (hp : s.transformation.Follows p)
    (pair : List (Option (ν × Node ℝ))) :
    (s.next tol (.attach pair)).transformation.Follows (noteTrails tol s p (.attach pair)) := by
  rcases s.transformation.attach_cases h0 pair with ⟨_, _, _, _, -, hresult, -⟩ | ⟨e, heq⟩
  · obtain ⟨i, ni, j, nj, r, rfl, -, hstate⟩ := Transformation.attach_of_ok h0 hresult
    simp only [next, noteTrails, Call.perform, hresult, hstate]
    exact ⟨rfl, rfl, rfl⟩
  · simp only [next, noteTrails, Call.perform, heq, Outcome.fail]
    exact hp

/-- **One operation follows the trails**, whether it succeeds or not. -/
theorem next_follows (h0 : 0 ≤ tol.parallel) (h : s.Consistent tol)
    (hp : s.transformation.Follows p) (c : Call ν ℝ) :
    (s.next tol c).transformation.Follows (noteTrails tol s p c) := by
  by_cases hattach : ∃ pair, c = .attach pair
  · obtain ⟨pair, rfl⟩ := hattach
    exact attach_follows h0 hp pair
  by_cases hstage : s.transformation.stage = .uninitialized
  · have hbound := Transformation.bound?_of_uninitialized hstage
    have hnote : noteTrails tol s p c = p := by
      cases c with
      | attach pair => exact absurd ⟨pair, rfl⟩ hattach
      | _ => simp only [noteTrails, hbound]
    rw [hnote, next, perform_uninitialized hstage c fun pair hc => hattach ⟨pair, hc⟩]
    exact hp
  obtain ⟨nodes, hbound⟩ := (h.sound hstage).bound
  have hversors := (h.sound hstage).versors
  cases c with
  | attach pair => exact absurd ⟨pair, rfl⟩ hattach
  | commit =>
    simp only [next, noteTrails, hbound.bound?, Call.perform,
      Transformation.commit_of_bound hbound.bound?, Outcome.ok]
    exact hp.commit
  | update trial =>
    simp only [next, noteTrails, hbound.bound?, Call.perform]
    exact hp.update h0 hversors hbound trial
  | revert trial =>
    simp only [next, noteTrails, hbound.bound?, Call.perform]
    exact hp.revert h0 hversors hbound trial
  | reset trial =>
    simp only [next, noteTrails, hbound.bound?, Call.perform]
    exact hp.reset h0 (h.sound hstage) hbound trial

/-- **Every run follows its trails.** -/
theorem run_follows (h0 : 0 ≤ tol.parallel) (config : Configuration ℝ) (calls : List (Call ν ℝ)) :
    (run tol config calls).transformation.Follows (trails tol config calls) :=
  observed_induction (R := fun s p => s.transformation.Follows p) ⟨rfl, rfl, rfl⟩
    (fun calls _ c hp => next_follows h0 (run_consistent h0 config calls) hp c) calls

/-- An update after an operation that looked at the nodes, with the nodes where they
were, ends as that operation did and changes nothing but the deformations before. -/
theorem update_again (h0 : 0 ≤ tol.parallel) (h : s.Consistent tol) {nodes : Ends ν}
    (hbound : s.transformation.bound? = .ok nodes) {c : Call ν ℝ}
    {trial trial' : ν → Displacement ℝ}
    (hc : c.trial? = some trial) (hsame : nodes.map trial' = nodes.map trial) :
    let o := c.perform tol s.transformation
    let o' := o.state.update tol trial'
    o'.result = o.result ∧ o'.state = { o.state with previous := o'.state.previous } := by
  intro o o'
  obtain ⟨hstage, hnodes⟩ := Transformation.bound?_eq_ok_iff.mp hbound
  have hsound := h.sound hstage
  have hnext (hbound : (c.perform tol s.transformation).state.stage ≠ .uninitialized) :
      (c.perform tol s.transformation).state.HasVersors :=
    ((next_consistent h0 h c).sound hbound).versors
  have hd {u : Transformation ν ℝ} (hinitial : u.initial = s.transformation.initial) :
      u.displacement (nodes.map trial') = s.transformation.displacement (nodes.map trial) := by
    rw [Transformation.displacement, hinitial, hsame, Transformation.displacement]
  rcases Transformation.perform_cases h0 hsound ⟨hstage, hnodes⟩ hc with
    ⟨u, heq, hu, hinitial, hcurrent⟩ | ⟨u, heq, hu, hinitial, hrefused⟩
  · rw [heq] at hnext
    have hupdate := hcurrent.update h0 (hnext hu.stage) hu (hd hinitial)
    simp only [o', o, heq, Outcome.ok, hupdate, and_self]
  · rw [heq] at hnext
    have hupdate := hrefused.update (hnext hu.stage) hu (hd hinitial)
    simp only [o', o, heq, Outcome.fail, hupdate, and_self]

/-- **The orientations are those of the trails.** After any sequence of operations, some
of which may fail: both trial orientations are the products of the increments from one
report to the next, the later one on the left, and the orientation that was set last,
by an attachment, a reset or a revert; with exact rotations that is a product of
exponentials. The increments add up to what was seen less what went with that
orientation. The committed orientations are those at the latest commit.

And an update right after an update, a revert or a reset, with the nodes where they
were, ends as that did and changes nothing but the deformations before. -/
theorem run_follows_trails (h0 : 0 ≤ tol.parallel) (config : Configuration ℝ)
    (calls : List (Call ν ℝ)) :
    let t := (run tol config calls).transformation
    let p := trails tol config calls
    t.versor = p.trial.map Trail.orientation ∧ t.committedVersor = p.committed
      ∧ t.nodalRotation = p.trial.map (fun q =>
        (q.increments.map fun v => (Versor.turn v).toMatrix).reverse.prod * q.anchor.toMatrix)
      ∧ (SeriesAngle.angle = 0 → t.nodalRotation.map Mat3.entries = p.trial.map fun q =>
        (q.increments.map fun v => NormedSpace.exp (Mat3.skew v).entries).reverse.prod
          * q.anchor.toMatrix.entries)
      ∧ t.seen = p.trial.map (fun q => q.origin + q.increments.sum)
      ∧ ∀ nodes, t.bound? = .ok nodes → ∀ (c : Call ν ℝ) (trial trial' : ν → Displacement ℝ),
        c.trial? = some trial → nodes.map trial' = nodes.map trial →
        let o := c.perform tol t
        let o' := o.state.update tol trial'
        o'.result = o.result ∧ o'.state = { o.state with previous := o'.state.previous } := by
  intro t p
  have hp : t.Follows p := run_follows h0 config calls
  have hrotation : t.nodalRotation = p.trial.map fun q => q.orientation.toMatrix := by
    rw [Transformation.nodalRotation, hp.versor]
    rfl
  refine ⟨hp.versor, hp.committed, ?_, fun hexact => ?_, ?_, fun nodes hbound c trial trial' => ?_⟩
  · rw [hrotation]
    exact Ends.ext (Trail.toMatrix_orientation _) (Trail.toMatrix_orientation _)
  · rw [hrotation]
    exact Ends.ext (Trail.entries_orientation _ hexact) (Trail.entries_orientation _ hexact)
  · have hlatest (q : Trail) : q.latest = q.origin + q.increments.sum := by
      rw [q.sum_increments]
      abel
    rw [hp.seen]
    exact Ends.ext (hlatest _) (hlatest _)
  · exact update_again h0 (run_consistent h0 config calls) hbound

omit [SeriesAngle] in
/-- The twisted element, whose orientations are the reference turned by one increment
each, with exact rotations. -/
theorem run_follows_trails_twisted :
    letI : SeriesAngle := .exact
    let calls : List (Call Bool ℝ) :=
      [.attach [some (false, .ofPosition .null 0), some (true, .ofPosition .null ⟨1, 0, 0⟩)],
        .update (pairTrial (twisted 1))]
    let t := (run .standard straight calls).transformation
    let p := trails .standard straight calls
    t.versor = p.trial.map Trail.orientation
      ∧ (t.nodalRotation.map Mat3.entries = p.trial.map fun q =>
        (q.increments.map fun v => NormedSpace.exp (Mat3.skew v).entries).reverse.prod
          * q.anchor.toMatrix.entries)
      ∧ ((t.update .standard (pairTrial (twisted 1))).state.update .standard
        (pairTrial (twisted 1))).result = (t.update .standard (pairTrial (twisted 1))).result := by
  let _ : SeriesAngle := .exact
  intro calls t p
  have h0 := Tolerances.standard_admissible_exact.parallel_nonneg
  obtain ⟨hstage, hnodes, -⟩ := twistedSession_standard
  have hbound : (twistedSession .standard).transformation.bound? = .ok ⟨false, true⟩ :=
    Transformation.bound?_eq_ok_iff.mpr ⟨by rw [hstage]; exact nofun, hnodes⟩
  obtain ⟨hversor, -, -, hexp, -, hagain⟩ := run_follows_trails h0 straight calls
  exact ⟨hversor, hexp rfl, (hagain _ hbound (.update (pairTrial (twisted 1))) _ _ rfl rfl).1⟩

end Session

end Corotation
