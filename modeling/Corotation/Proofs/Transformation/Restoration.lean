import Corotation.Proofs.Transformation.Lifecycle
import Corotation.Proofs.Transformation.Twisted
/-!
# Restoration of a commit

After a commit the solver tries: the nodes move, updates succeed or fail, forces
and stiffnesses are asked for, and some of the attempts are reverted. All of these
keep the commit (`Attempt.after_keeps`), whatever else they leave behind. A revert
starts from the committed orientations and takes the rotational parts that the nodes
report for seen, so that nothing turns, and evaluates what was evaluated before the
commit. So once the translations are back it finds the same (`revert_eq`).

That what is cached before the commit is an evaluation holds for every session since
it bound its nodes (`IsInitialized.isEvaluated`). No law of arithmetic is behind any
of this: all that is asked is that a rotational part less itself has no length, and over
the real numbers not even that (`run_restores_commit`).
-/

namespace Corotation

/-- A vector less itself has no length. Every vector over the real numbers is so,
and in double precision every finite one. -/
def Vec3.Cancels {α : Type} [Scalar α] (v : Vec3 α) : Prop := Scalar.IsZero (v - v).norm

theorem Vec3.cancels_real [SeriesAngle] (v : Vec3 ℝ) : v.Cancels := by
  rw [Cancels, Scalar.isZero_real, sub_self, norm_zero]

/-! ## Attempts -/

/-- What a solver does between two commits, with what the nodes report at it. -/
inductive Attempt (ν α : Type) where
  /-- Follow the nodes. -/
  | update (trial : ν → Displacement α)
  /-- Go back to the committed state. -/
  | revert (trial : ν → Displacement α)
  /-- Ask for the nodal forces of local forces. -/
  | force (p : ElementVector α)
  /-- Ask for the stiffness of a local stiffness at local forces. -/
  | stiffness (k : ElementMatrix α) (p : ElementVector α)

namespace Attempt

variable {ν α : Type} [Scalar α]

/-- The attempt on a transformation. A query leaves it alone. -/
def perform (tol : Tolerances α) (t : Transformation ν α) :
    Attempt ν α → Outcome α (Transformation ν α) Unit
  | update trial => t.update tol trial
  | revert trial => t.revert tol trial
  | force p => ⟨t, [], (t.pushForce p).map fun _ => ()⟩
  | stiffness k p =>
    let answer := t.pushStiffness tol k p
    ⟨t, (answer.toOption.map Prod.snd).getD [], answer.map fun _ => ()⟩

/-- The transformation after a sequence of attempts, some of which may fail. -/
def after (tol : Tolerances α) (t : Transformation ν α) (attempts : List (Attempt ν α)) :
    Transformation ν α := attempts.foldl (fun t a => (a.perform tol t).state) t

variable (tol : Tolerances α) (t : Transformation ν α)

/-- **An attempt keeps the commit**, whether it succeeds or not. -/
theorem perform_keeps (a : Attempt ν α) : t.Keeps (a.perform tol t).state := by
  cases a with
  | update trial => exact t.update_keeps tol trial
  | revert trial => exact t.revert_keeps tol trial
  | force p => exact .refl t
  | stiffness k p => exact .refl t

/-- **Any sequence of attempts keeps the commit.** -/
theorem after_keeps (attempts : List (Attempt ν α)) : t.Keeps (after tol t attempts) := by
  induction attempts generalizing t with
  | nil => exact .refl t
  | cons a attempts ih => exact (perform_keeps tol t a).trans (ih _)

end Attempt

namespace Transformation

variable {ν α : Type} [Scalar α] {tol : Tolerances α} {s t u : Transformation ν α}
variable {d d' : Ends (Displacement α)} {nodes : Ends ν}

/-! ## Reverts -/

/-- What is cached is what an evaluation at the displacements `d` finds. -/
structure IsEvaluation (tol : Tolerances α) (t : Transformation ν α)
    (d : Ends (Displacement α)) : Prop where
  stage : t.stage = .current
  seen : t.seen = d.map Screw.rot
  evaluate : t.evaluate tol d = .ok (t.withCache t) ()

/-- A state that an evaluation left is evaluated. -/
theorem isEvaluation_of_evaluate (hseen : t.seen = d.map Screw.rot)
    (h : t.evaluate tol d = .ok u ()) : IsEvaluation tol u d := by
  obtain ⟨_, _, -, -, -, hu⟩ := evaluate_eq_ok_iff.mp h
  refine ⟨by rw [hu], by rw [hu]; exact hseen, ?_⟩
  exact evaluate_congr (by rw [hu]) (by rw [hu]) rfl rfl h

/-- A vector that was seen turns nothing. -/
theorem turned_self {v : Vec3 α} (hv : v.Cancels) (q : Versor α) : turned v v q = .ok q :=
  if_pos hv

/-- What was seen turns nothing. -/
theorem advance_self (hi : t.seen.i.Cancels) (hj : t.seen.j.Cancels) :
    t.advance t.seen = .ok t () := by
  unfold advance
  simp only [turned_self hi, turned_self hj]

/-- **A revert is an evaluation of the restored state**, if the rotational parts that the nodes
report cancel: nothing has turned since it was restored. -/
theorem revert_of_cancels (hbound : t.bound? = .ok nodes) {trial : ν → Displacement α}
    (hd : t.displacement (nodes.map trial) = d) (hi : d.i.rot.Cancels) (hj : d.j.rot.Cancels) :
    t.revert tol trial
      = { t.restore (nodes.map trial) with stage := .initialized }.evaluate tol d := by
  subst hd
  have hrestored : (t.restore (nodes.map trial)).bound? = .ok nodes := hbound
  set r : Transformation ν α := { t.restore (nodes.map trial) with stage := .initialized }
  have hadvance : r.advance r.seen = .ok r () := advance_self hi hj
  unfold revert
  rw [hbound]
  change (t.restore (nodes.map trial)).update tol trial = _
  rw [update_of_bound hrestored]
  change (r.advance r.seen).andThen _ = _
  rw [hadvance, Outcome.ok_andThen]
  rfl

/-- **A revert finds what was committed.** From whatever state attempts have left
since the commit of an evaluated state `s`, with the nodes' translations back: the
revert succeeds with the committed state, but for the rotational parts seen last
and the deformations before. -/
theorem revert_eq (hs : IsEvaluation tol s d) (hbound : s.bound? = .ok nodes)
    (hkeeps : Keeps s.snapshot t) {trial : ν → Displacement α}
    (hd : s.displacement (nodes.map trial) = d') (hi : d'.i.lin = d.i.lin)
    (hj : d'.j.lin = d.j.lin) (hcancel : d'.i.rot.Cancels ∧ d'.j.rot.Cancels) :
    t.revert tol trial = .ok
      { s.snapshot with previous := s.deformation, seen := d'.map Screw.rot } () := by
  subst hd
  have hbound' : t.bound? = .ok nodes :=
    hkeeps.bound? (bound?_eq_ok_iff.mpr (bound?_eq_ok_iff.mp hbound))
  have hd : t.displacement (nodes.map trial) = s.displacement (nodes.map trial) := by
    rw [displacement, hkeeps.initial]
    rfl
  set r : Transformation ν α := { t.restore (nodes.map trial) with stage := .initialized } with hr
  have hseen : r.seen = (s.displacement (nodes.map trial)).map Screw.rot :=
    congrArg (Ends.map Screw.rot) hd
  have hevaluate : r.evaluate tol (s.displacement (nodes.map trial)) = .ok (r.withCache s) () :=
    evaluate_congr (t := s) (u := s.withCache s) hkeeps.reference hkeeps.committedVersor hi hj
      hs.evaluate
  rw [revert_of_cancels hbound' hd hcancel.1 hcancel.2, ← hr, hevaluate]
  refine congrArg (Outcome.ok · ()) (Transformation.ext hkeeps.config hkeeps.nodes hs.stage.symm
    hkeeps.capture hkeeps.initial hkeeps.reference rfl rfl rfl ?_ hkeeps.committedVersor
    hkeeps.committedVersor rfl hkeeps.committed hkeeps.committed rfl)
  exact hseen

/-! ## What an operation evaluates -/

/-- A commit keeps what was evaluated. -/
theorem IsEvaluation.snapshot (h : IsEvaluation tol t d) : IsEvaluation tol t.snapshot d :=
  ⟨h.stage, h.seen, evaluate_congr (t := t) (u := t.withCache t) rfl rfl rfl rfl h.evaluate⟩

/-- An update is current only as an evaluation at what the nodes report. -/
theorem update_isEvaluation (hbound : t.bound? = .ok nodes) (trial : ν → Displacement α)
    (hstage : (t.update tol trial).state.stage = .current) :
    IsEvaluation tol (t.update tol trial).state
      ((t.update tol trial).state.displacement (nodes.map trial)) := by
  have hinitial := (update_keeps tol trial t).initial
  rw [displacement, hinitial]
  rcases update_outcome tol hbound trial with ⟨q, u, heval, heq⟩ | ⟨_, q, _, e, heq⟩
  · rw [heq]
    exact isEvaluation_of_evaluate rfl heval
  · rw [heq] at hstage
    exact absurd hstage nofun

/-- A revert is current only as an evaluation at what the nodes report. -/
theorem revert_isEvaluation (hbound : t.bound? = .ok nodes) (trial : ν → Displacement α)
    (hstage : (t.revert tol trial).state.stage = .current) :
    IsEvaluation tol (t.revert tol trial).state
      ((t.revert tol trial).state.displacement (nodes.map trial)) := by
  have hrestored : (t.restore (nodes.map trial)).bound? = .ok nodes := hbound
  rw [revert_of_bound hbound] at hstage ⊢
  exact update_isEvaluation hrestored trial hstage

/-- A reset is current only as an evaluation at what the nodes report, if the
reference has a versor. -/
theorem reset_isEvaluation (hbound : t.bound? = .ok nodes) {q : Versor α}
    (hq : Versor.ofMatrix t.reference.axes = .ok q) (trial : ν → Displacement α)
    (hstage : (t.reset tol trial).state.stage = .current) :
    IsEvaluation tol (t.reset tol trial).state
      ((t.reset tol trial).state.displacement (nodes.map trial)) := by
  have hstart : (t.backAtStart q).bound? = .ok nodes := hbound
  rcases reset_outcome tol hbound hq trial with ⟨u, hupdate, heq⟩ | ⟨u, e, hu, -, heq⟩
  · have heval (hs : ((t.backAtStart q).update tol trial).state.stage = .current) :=
      update_isEvaluation hstart trial hs
    rw [hupdate] at heval
    rw [heq] at hstage ⊢
    exact (heval hstage).snapshot
  · rw [heq] at hstage
    exact absurd (hu.symm.trans hstage) nofun

end Transformation

/-! ## Evaluations over the real numbers -/

namespace Transformation

variable [SeriesAngle] {ν : Type} {tol : Tolerances ℝ} {t : Transformation ν ℝ}
variable {d : Ends (Displacement ℝ)}

/-- Between versors what an evaluation finds is current. -/
theorem IsEvaluation.isCurrent (h0 : 0 ≤ tol.parallel) (hversors : t.HasVersors)
    (h : IsEvaluation tol t d) : IsCurrent tol t d := by
  rcases evaluate_cases h0 hversors with ⟨hdet, heq⟩ | ⟨-, e, heq⟩
  · have hcache : t.withCache t = t.evaluated d tol :=
      congrArg Outcome.state (h.evaluate.symm.trans heq)
    have htriad : t.triad = t.deformedTriad d := congrArg Transformation.triad hcache
    have harm : t.arm = t.deformedArm := congrArg Transformation.arm hcache
    have hdeformation : t.deformation = t.localDeformation d :=
      congrArg Transformation.deformation hcache
    have htangent : t.tangent = some (t.tangentMap tol) := by
      rw [tangentMap, htriad, harm, hdeformation]
      exact congrArg Transformation.tangent hcache
    refine ⟨h.stage, h.seen, hdet, harm, htriad, congrArg Transformation.deformedLength hcache,
      hdeformation, ?_⟩
    rw [tangent?, h.stage, htangent]
  · cases congrArg Outcome.result (h.evaluate.symm.trans heq)

end Transformation

/-! ## Sessions -/

namespace Call

variable {ν α : Type} [Scalar α] {tol : Tolerances α} {t : Transformation ν α} {c : Call ν α}

/-- Nothing but an attachment changes the reference. -/
theorem perform_reference {q : Versor α} (hq : Versor.ofMatrix t.reference.axes = .ok q)
    (hc : ∀ pair, c ≠ .attach pair) : (c.perform tol t).state.reference = t.reference := by
  cases hbound : t.bound? with
  | error e =>
    rw [perform_of_unbound hbound hc]
    rfl
  | ok nodes =>
    cases c with
    | attach pair => exact absurd rfl (hc pair)
    | update trial => exact (t.update_keeps tol trial).reference
    | commit =>
      simp only [perform, Transformation.commit_of_bound hbound]
      rfl
    | revert trial => exact (t.revert_keeps tol trial).reference
    | reset trial =>
      rcases Transformation.reset_outcome tol hbound hq trial with
        ⟨u, hupdate, heq⟩ | ⟨u, e, -, hu, heq⟩
      · have hkeeps := (t.backAtStart q).update_keeps tol trial
        rw [hupdate] at hkeeps
        rw [perform, heq]
        exact hkeeps.reference
      · rw [perform, heq]
        exact hu

end Call

namespace Session

variable {ν α : Type} [Scalar α] {tol : Tolerances α} {s : Session ν α} {c : Call ν α}

/-- The reference has a versor, and in the stage `current` what is cached is what an
evaluation at the displacements reported finds. -/
structure IsEvaluated (tol : Tolerances α) (s : Session ν α) : Prop where
  versor : ∃ q, Versor.ofMatrix s.transformation.reference.axes = .ok q
  current : s.transformation.stage = .current → s.transformation.IsEvaluation tol s.displacement

/-- A session with the same state, and in the stage `current` the same
displacements reported, is evaluated as well. -/
theorem IsEvaluated.congr {s' : Session ν α} (h : s.IsEvaluated tol)
    (hstate : s'.transformation = s.transformation)
    (hreported : s.transformation.stage = .current → s'.reported = s.reported) :
    s'.IsEvaluated tol := by
  refine ⟨hstate ▸ h.versor, fun hcurrent => ?_⟩
  rw [hstate] at hcurrent
  rw [displacement, hstate, hreported hcurrent]
  exact h.current hcurrent

/-- **One operation keeps a session evaluated**, unless it binds other nodes. -/
theorem next_isEvaluated (h : s.IsEvaluated tol) (hc : ∀ pair, c ≠ .attach pair) :
    (s.next tol c).IsEvaluated tol := by
  cases hbound : s.transformation.bound? with
  | error e =>
    have hstate : (c.perform tol s.transformation).state = s.transformation := by
      rw [Call.perform_of_unbound hbound hc]
      rfl
    refine h.congr hstate fun hstage => ?_
    -- in the stage `current` it is the nodes that are missing, so none were looked at
    have hnodes : s.transformation.nodes = none := by
      cases hnodes : s.transformation.nodes with
      | none => rfl
      | some nodes =>
        have hok := Transformation.bound?_eq_ok_iff.mpr ⟨by rw [hstage]; exact nofun, hnodes⟩
        exact absurd (hbound.symm.trans hok) nofun
    simp only [next, hnodes]
  | ok nodes =>
    obtain ⟨q, hq⟩ := h.versor
    refine ⟨⟨q, by rw [next, Call.perform_reference hq hc]; exact hq⟩, fun hstage => ?_⟩
    have hnodes := (Transformation.bound?_eq_ok_iff.mp hbound).2
    cases c with
    | attach pair => exact absurd rfl (hc pair)
    | update trial =>
      rw [next_displacement hnodes rfl]
      exact Transformation.update_isEvaluation hbound trial hstage
    | commit =>
      have hstate : (s.next tol .commit).transformation = s.transformation.snapshot :=
        congrArg Outcome.state (Transformation.commit_of_bound hbound)
      rw [hstate] at hstage
      rw [displacement, hstate, next_reported rfl]
      exact (h.current hstage).snapshot
    | revert trial =>
      rw [next_displacement hnodes rfl]
      exact Transformation.revert_isEvaluation hbound trial hstage
    | reset trial =>
      rw [next_displacement hnodes rfl]
      exact Transformation.reset_isEvaluation hbound hq trial hstage

/-- A session that has bound its nodes, and after that has been through operations
that bind no others. An attachment may be refused, if it changes nothing. -/
inductive IsInitialized (tol : Tolerances α) : Session ν α → Prop
  /-- The nodes are bound. -/
  | attach (s : Session ν α) {pair : List (Option (ν × Node α))}
      (h : (s.transformation.attach tol pair).result = .ok ()) :
      IsInitialized tol (s.next tol (.attach pair))
  /-- An attachment is refused. -/
  | refused {s : Session ν α} (hs : IsInitialized tol s) {pair : List (Option (ν × Node α))}
      (h : (s.transformation.attach tol pair).state = s.transformation) :
      IsInitialized tol (s.next tol (.attach pair))
  /-- Any other operation follows, successful or not. -/
  | next {s : Session ν α} (hs : IsInitialized tol s) {c : Call ν α}
      (hc : ∀ pair, c ≠ .attach pair) : IsInitialized tol (s.next tol c)

/-- **An initialized session is evaluated** at all times. -/
theorem IsInitialized.isEvaluated (h : s.IsInitialized tol) : s.IsEvaluated tol := by
  induction h with
  | attach s hok =>
    obtain ⟨hstage, hversor⟩ := Transformation.attach_ok hok
    exact ⟨hversor, fun hcurrent => absurd (hstage.symm.trans hcurrent) nofun⟩
  | @refused s hs pair hstate ih =>
    exact ih.congr hstate fun _ => next_reported rfl
  | next hs hc ih => exact next_isEvaluated ih hc

section Current

variable (h : s.IsInitialized tol) (hcurrent : s.transformation.stage = .current)
variable {nodes : Ends ν} {trial : ν → Displacement α}

include h hcurrent

/-- **What a revert leaves** after a commit and any attempts: the committed state, but for the
rotational parts seen last and the deformations before. -/
theorem IsInitialized.revert_commit (hnodes : s.transformation.nodes = some nodes)
    (attempts : List (Attempt ν α)) (hi : (trial nodes.i).lin = s.reported.i.lin)
    (hj : (trial nodes.j).lin = s.reported.j.lin)
    (hcancel : (s.transformation.displacement (nodes.map trial)).i.rot.Cancels
      ∧ (s.transformation.displacement (nodes.map trial)).j.rot.Cancels) :
    let t := s.transformation
    t.commit = .ok t.snapshot ()
      ∧ (Attempt.after tol t.snapshot attempts).revert tol trial
        = .ok { t.snapshot with
            previous := t.deformation,
            seen := (t.displacement (nodes.map trial)).map Screw.rot } () := by
  intro t
  have hbound : t.bound? = .ok nodes :=
    Transformation.bound?_eq_ok_iff.mpr ⟨by rw [hcurrent]; exact nofun, hnodes⟩
  exact ⟨Transformation.commit_of_bound hbound,
    Transformation.revert_eq (h.isEvaluated.current hcurrent) hbound
      (Attempt.after_keeps tol t.snapshot attempts) rfl
      (congrArg (· - t.initial.i.lin) hi) (congrArg (· - t.initial.j.lin) hj) hcancel⟩

/-- Nodes whose rotational parts are those reported last show nothing that was not seen. -/
theorem IsInitialized.seen_of_rot (hi : (trial nodes.i).rot = s.reported.i.rot)
    (hj : (trial nodes.j).rot = s.reported.j.rot) :
    (s.transformation.displacement (nodes.map trial)).map Screw.rot = s.transformation.seen := by
  rw [(h.isEvaluated.current hcurrent).seen]
  exact Ends.ext (congrArg (· - s.transformation.initial.i.rot) hi)
    (congrArg (· - s.transformation.initial.j.rot) hj)

end Current

/-- **A revert restores the commit.** In any current state of any initialized
session the commit succeeds. After any attempts, with the translations of the nodes
back at those of the commit and rotational parts of any value, the revert succeeds,
and the deformations, the deformed length, the triad, the tangent, the rotations of
both nodes and the stage are exactly those at the commit. With the rotational parts
back as well, the whole state is the committed one but for the deformations before
the latest update.

This holds over any scalars, in double precision as well, for rotational parts that
are finite. Over the real numbers they all cancel, and every session past the stage
`uninitialized` is initialized (`run_restores_commit`). -/
theorem revert_restores_commit (h : s.IsInitialized tol)
    (hcurrent : s.transformation.stage = .current) {nodes : Ends ν}
    (hnodes : s.transformation.nodes = some nodes) (attempts : List (Attempt ν α))
    {trial : ν → Displacement α} (hi : (trial nodes.i).lin = s.reported.i.lin)
    (hj : (trial nodes.j).lin = s.reported.j.lin)
    (hcancel_i : (s.transformation.displacement (nodes.map trial)).i.rot.Cancels)
    (hcancel_j : (s.transformation.displacement (nodes.map trial)).j.rot.Cancels) :
    let t := s.transformation
    t.commit = .ok t.snapshot ()
      ∧ ∃ t', (Attempt.after tol t.snapshot attempts).revert tol trial = .ok t' ()
        ∧ t'.deformation = t.deformation ∧ t'.deformedLength = t.deformedLength
        ∧ t'.rotation = t.rotation ∧ t'.tangent? = t.tangent?
        ∧ t'.nodalRotation = t.nodalRotation ∧ t'.stage = t.stage
        ∧ ((trial nodes.i).rot = s.reported.i.rot → (trial nodes.j).rot = s.reported.j.rot →
          { t' with previous := t.snapshot.previous } = t.snapshot) := by
  intro t
  obtain ⟨hcommit, hrevert⟩ := h.revert_commit hcurrent hnodes attempts hi hj ⟨hcancel_i, hcancel_j⟩
  refine ⟨hcommit, _, hrevert, rfl, rfl, rfl, rfl, rfl, rfl, fun hri hrj => ?_⟩
  rw [h.seen_of_rot hcurrent hri hrj]
  rfl

end Session

namespace Session

variable [SeriesAngle] {ν : Type} {tol : Tolerances ℝ}

/-- Over the real numbers a session is initialized once it is past the stage
`uninitialized`. -/
theorem isInitialized_run (h0 : 0 ≤ tol.parallel) (config : Configuration ℝ)
    (calls : List (Call ν ℝ)) (h : (run tol config calls).transformation.stage ≠ .uninitialized) :
    (run tol config calls).IsInitialized tol := by
  unfold run at h ⊢
  induction calls using List.reverseRecOn with
  | nil => exact absurd rfl h
  | append_singleton calls c ih =>
    rw [List.foldl_append] at h ⊢
    set s := calls.foldl (next tol) (start config)
    change (s.next tol c).transformation.stage ≠ .uninitialized at h
    by_cases hattach : ∃ pair, c = .attach pair
    · obtain ⟨pair, rfl⟩ := hattach
      rcases s.transformation.attach_cases h0 pair with ⟨_, _, _, _, -, hresult, -⟩ | ⟨e, heq⟩
      · exact .attach s hresult
      · have hstate := congrArg Outcome.state heq
        refine .refused (ih fun hs => h ?_) hstate
        exact (congrArg Transformation.stage hstate).trans hs
    · have hc (pair : List (Option (ν × Node ℝ))) : c ≠ .attach pair :=
        fun heq => hattach ⟨pair, heq⟩
      refine .next (ih fun hs => h ?_) hc
      rw [next, perform_uninitialized hs c hc, hs]

omit [SeriesAngle] in
/-- The twisted element after a move of one node onto the other, a turn, a query and
a revert elsewhere: reverted with its translations back and one node turned. -/
theorem revert_restores_commit_twisted :
    letI : SeriesAngle := .exact
    let t := (twistedSession .standard).transformation
    let attempts : List (Attempt Bool ℝ) :=
      [.update (pairTrial ⟨0, ⟨⟨-1, 0, 0⟩, 0⟩⟩), .update (pairTrial ⟨⟨0, ⟨0, 0, 1⟩⟩, 0⟩),
        .force ⟨⟨0, ⟨0, 1, 0⟩⟩, ⟨⟨1, 0, 0⟩, 0⟩⟩, .revert (pairTrial ⟨0, ⟨⟨1, 0, 0⟩, 0⟩⟩)]
    ∃ t', (Attempt.after .standard t.snapshot attempts).revert .standard
        (pairTrial ⟨⟨0, ⟨0, 0, 1⟩⟩, 0⟩) = .ok t' ()
      ∧ t'.deformation = Transformation.twisted 1 ∧ t'.stage = .current
      ∧ t'.nodalRotation = t.nodalRotation ∧ t'.tangent? = t.tangent? := by
  let _ : SeriesAngle := .exact
  intro t attempts
  have h0 := Tolerances.standard_admissible_exact.parallel_nonneg
  obtain ⟨hstage, hnodes, hreported, hdeformation⟩ := twistedSession_current le_rfl one_pos h0
    Tolerances.standard_parallel_lt_cos
  have hinitialized : (twistedSession .standard).IsInitialized .standard :=
    isInitialized_run h0 straight _ (by rw [← twistedSession, hstage]; exact nofun)
  set s := twistedSession .standard
  have hi : (pairTrial ⟨⟨0, ⟨0, 0, 1⟩⟩, 0⟩ false).lin = s.reported.i.lin := by
    rw [hreported]
    rfl
  have hj : (pairTrial ⟨⟨0, ⟨0, 0, 1⟩⟩, 0⟩ true).lin = s.reported.j.lin := by
    rw [hreported]
    rfl
  obtain ⟨-, t', hrevert, hdef, -, -, htangent, hrotation, hstage', -⟩ := revert_restores_commit
    hinitialized hstage hnodes attempts hi hj (Vec3.cancels_real _) (Vec3.cancels_real _)
  exact ⟨t', hrevert, hdef.trans hdeformation, hstage'.trans hstage, hrotation, htangent⟩

/-- **Over the real numbers every run restores its commit.** Nothing is asked of the rotational
parts that the nodes report at the revert. -/
theorem run_restores_commit (h0 : 0 ≤ tol.parallel) (config : Configuration ℝ)
    (calls : List (Call ν ℝ)) (hcurrent : (run tol config calls).transformation.stage = .current)
    {nodes : Ends ν} (hnodes : (run tol config calls).transformation.nodes = some nodes)
    (attempts : List (Attempt ν ℝ)) {trial : ν → Displacement ℝ}
    (hi : (trial nodes.i).lin = (run tol config calls).reported.i.lin)
    (hj : (trial nodes.j).lin = (run tol config calls).reported.j.lin) :
    let s := run tol config calls
    let t := s.transformation
    t.commit = .ok t.snapshot ()
      ∧ ∃ t', (Attempt.after tol t.snapshot attempts).revert tol trial = .ok t' ()
        ∧ t'.deformation = t.deformation ∧ t'.deformedLength = t.deformedLength
        ∧ t'.rotation = t.rotation ∧ t'.tangent? = t.tangent?
        ∧ t'.nodalRotation = t.nodalRotation ∧ t'.stage = t.stage
        ∧ ((trial nodes.i).rot = s.reported.i.rot → (trial nodes.j).rot = s.reported.j.rot →
          { t' with previous := t.snapshot.previous } = t.snapshot) := by
  intro s t
  have h : s.IsInitialized tol :=
    isInitialized_run h0 config calls (by rw [hcurrent]; exact nofun)
  obtain ⟨hcommit, hrevert⟩ := h.revert_commit hcurrent hnodes attempts hi hj
    ⟨Vec3.cancels_real _, Vec3.cancels_real _⟩
  refine ⟨hcommit, _, hrevert, rfl, rfl, rfl, rfl, rfl, rfl, fun hri hrj => ?_⟩
  rw [h.seen_of_rot hcurrent hri hrj]
  rfl

end Session

end Corotation
