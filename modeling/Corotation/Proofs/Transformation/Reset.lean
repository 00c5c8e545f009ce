import Corotation.Proofs.Transformation.Acceptance
import Corotation.Proofs.Transformation.Agreement
import Corotation.Proofs.Transformation.Currency
import Corotation.Proofs.Transformation.Restoration
/-!
# Resets

A reset takes the orientations and the deformations back and leaves everything else to an
update and a commit. To attach the same nodes once more, update and commit comes to the same
in every respect (`Transformation.reset_eq`): the reference geometry is found again, since the
nodes are where they were, and displacements are not looked for again. An update of either
state starts from the same orientations with nothing seen, and overwrites what the two had not
in common.
-/

namespace Corotation

namespace Transformation

variable {ν α : Type} [Scalar α] {tol : Tolerances α} {t : Transformation ν α}
variable {nodes : Ends ν} {ni nj : Node α}

/-! ## Attachments repeated -/

/-- The bound nodes attached once more, followed and committed. -/
def reattach (tol : Tolerances α) (nodes : Ends ν) (ni nj : Node α) (trial : ν → Displacement α)
    (t : Transformation ν α) : Outcome α (Transformation ν α) Unit :=
  ((t.attach tol [some (nodes.i, ni), some (nodes.j, nj)]).andThen
    fun t _ => t.update tol trial).andThen fun t _ => t.commit

/-- An attachment that finds the reference geometry there is, with displacements looked for
already, sets up the frame and does nothing else. -/
theorem attach_again (href : referenceOf tol t.config ⟨ni.position, nj.position⟩ = .ok t.reference)
    (hcapture : t.capture ≠ .unchecked) :
    t.attach tol [some (nodes.i, ni), some (nodes.j, nj)]
      = (t.bind nodes t.reference).settle tol := by
  unfold attach
  simp only [href, lookForDisplacements_of_checked hcapture, List.nil_append]

/-- Without a frame it is refused. -/
theorem reattach_without_frame (nodes : Ends ν)
    (href : referenceOf tol t.config ⟨ni.position, nj.position⟩ = .ok t.reference)
    (hframe : ¬ t.reference.HasFrame tol) (trial : ν → Displacement α) :
    ∃ e, (t.reattach tol nodes ni nj trial).result = .error e := by
  obtain ⟨⟨e, he⟩, -⟩ := attach_without_frame (i := nodes.i) (j := nodes.j) href hframe
  refine ⟨e, ?_⟩
  simp only [reattach, Outcome.andThen, he]

variable (hbound : t.bound? = .ok nodes)
variable (href : referenceOf tol t.config ⟨ni.position, nj.position⟩ = .ok t.reference)
variable (hcapture : t.capture ≠ .unchecked)

include hbound href hcapture

/-- Without a versor it is refused, and a reset for the same reason. -/
theorem reset_without_versor {e : Failure α} (hq : Versor.ofMatrix t.reference.axes = .error e)
    (trial : ν → Displacement α) :
    (t.reset tol trial).result = (t.reattach tol nodes ni nj trial).result := by
  have hreset : t.reset tol trial = .fail { t with deformation := .zero } e := by
    unfold reset
    simp only [hbound, hq]
  have hattach : (t.bind nodes t.reference).settle tol = .fail (t.bind nodes t.reference) e := by
    unfold settle
    simp only [bind, hq]
  unfold reattach
  rw [hreset, attach_again href hcapture, hattach]
  rfl

/-- **With a frame a reset is an attachment repeated**, followed and committed. -/
theorem reset_with_frame (hframe : t.reference.HasFrame tol) (trial : ν → Displacement α) :
    (t.reset tol trial).result = (t.reattach tol nodes ni nj trial).result
      ∧ ((t.reattach tol nodes ni nj trial).result = .ok () →
        t.reset tol trial = t.reattach tol nodes ni nj trial) := by
  have hnodes := (bound?_eq_ok_iff.mp hbound).2
  obtain ⟨⟨q, hq⟩, triad, htriad⟩ := hframe
  set a := (t.bind nodes t.reference).framed q triad
  have hagrees : Agrees (t.backAtStart q) a := ⟨rfl, rfl, rfl, rfl⟩
  have hstart : (t.backAtStart q).bound? = .ok nodes := hbound
  have hattached : a.bound? = .ok nodes := bound?_eq_ok_iff.mpr ⟨nofun, rfl⟩
  unfold reattach
  rw [attach_again href hcapture, settle_of_frame (t := t.bind nodes t.reference) hq htriad,
    reset_of_bound hbound hq, Outcome.ok_andThen]
  have hd : a.displacement (nodes.map trial)
      = (t.backAtStart q).displacement (nodes.map trial) := rfl
  rcases update_agrees tol hagrees hstart hattached hd with
    ⟨seen, q', u, hreset, hattach⟩ | ⟨seen, q', found, e, hreset, hattach⟩
  · -- the deformations before the update are those of the start in both, and the rest is
    -- overwritten by the update and the commit
    have hcommit := commit_of_bound (t := ((t.backAtStart q).underway seen q').withCache u)
      (bound?_eq_ok_iff.mpr ⟨nofun, hnodes⟩)
    have hcommit' := commit_of_bound (t := (a.underway seen q').withCache u)
      (bound?_eq_ok_iff.mpr ⟨nofun, rfl⟩)
    rw [hreset, hattach, Outcome.ok_andThen, Outcome.ok_andThen, hcommit, hcommit']
    refine ⟨rfl, fun _ => congrArg (Outcome.ok · ()) ?_⟩
    exact Transformation.ext rfl hnodes rfl rfl rfl rfl rfl rfl rfl rfl rfl rfl rfl rfl rfl rfl
  · rw [hreset, hattach]
    exact ⟨rfl, nofun⟩

/-- A reset leaves what an attachment repeated does, wherever that succeeds; and it succeeds
there only, if the reference geometry has a frame wherever it has a versor. -/
theorem reset_eq (trial : ν → Displacement α) :
    ((t.reattach tol nodes ni nj trial).result = .ok () →
        t.reset tol trial = t.reattach tol nodes ni nj trial)
      ∧ (((∃ q, Versor.ofMatrix t.reference.axes = .ok q) → t.reference.HasFrame tol) →
        (t.reset tol trial).result = (t.reattach tol nodes ni nj trial).result) := by
  by_cases hframe : t.reference.HasFrame tol
  · obtain ⟨hresult, hsame⟩ := reset_with_frame hbound href hcapture hframe trial
    exact ⟨hsame, fun _ => hresult⟩
  · refine ⟨fun hok => ?_, fun h => ?_⟩
    -- a reset needs the versor alone, so only without one it is known to be refused as well
    · obtain ⟨e, he⟩ := reattach_without_frame nodes href hframe trial
      cases he.symm.trans hok
    · cases hq : Versor.ofMatrix t.reference.axes with
      | error e => exact reset_without_versor hbound href hcapture hq trial
      | ok q => exact absurd (h ⟨q, hq⟩) hframe

end Transformation

/-! ## The undeformed state -/

namespace Transformation

variable [SeriesAngle] {ν : Type} {tol : Tolerances ℝ} {t : Transformation ν ℝ}
variable {d : Ends (Displacement ℝ)} {position : Ends (Vec3 ℝ)} {nodes : Ends ν}

/-- The undeformed reference configuration, which is also what was committed. -/
structure IsAtRest (t : Transformation ν ℝ) : Prop where
  stage : t.stage = .current
  deformation : t.deformation = 0
  deformedLength : t.deformedLength = t.reference.length
  rotation : t.rotation = t.reference.axes
  nodalRotation : t.nodalRotation = .both t.reference.axes
  committed : t.committed = 0
  committedRotation : t.committedVersor.map Versor.toMatrix = .both t.reference.axes

/-- A chord is that of no displacements exactly if its end points move alike. -/
theorem deformedChord_eq_iff (h : t.reference.IsSound tol position) (d : Ends (Displacement ℝ)) :
    t.deformedChord d = t.deformedChord 0 ↔ d.i.lin = d.j.lin := by
  have hdifference : t.deformedChord d - t.deformedChord 0 = d.j.lin - d.i.lin := by
    rw [deformedChord_eq h, deformedChord_eq h]
    change position.j + d.j.lin + t.deformedArm.j - (position.i + d.i.lin + t.deformedArm.i)
      - (position.j + 0 + t.deformedArm.j - (position.i + 0 + t.deformedArm.i)) = _
    abel
  rw [← sub_eq_zero, hdifference, sub_eq_zero, eq_comm]

/-- **Moved as a whole and not turned, an element is at rest.** -/
theorem isAtRest_of_undeformed (h : t.reference.IsSound tol position)
    (hrot : t.nodalRotation = .both t.reference.axes) (hlin : d.i.lin = d.j.lin) :
    Determines tol t d ∧ (t.evaluated d tol).snapshot.IsAtRest := by
  have hchord : t.deformedChord d = t.deformedChord 0 := (deformedChord_eq_iff h d).mpr hlin
  have htriad : t.deformedTriad d = t.deformedTriad 0 := by
    rw [deformedTriad, hchord, deformedTriad]
  have hsame : t.localDeformation d = t.localDeformation 0 := by
    simp only [localDeformation, hchord, htriad]
  have hdeformation := hsame.trans (localDeformation_eq_zero h hrot)
  obtain ⟨hdet, haxes⟩ := undeformed_triad h hrot
  refine ⟨by rwa [Determines, hchord], rfl, hdeformation, ?_, ?_, hrot, hdeformation, hrot⟩
  · change (t.deformedChord d).norm = t.reference.length
    rw [hchord, (undeformed_chord h hrot).2, h.length]
  · change (t.deformedTriad d).axes = t.reference.axes
    rw [htriad, haxes]

/-- The axes of a triad at rest leave no other chord of its length. -/
theorem chord_of_isAtRest (h : t.reference.IsSound tol position)
    (hrest : (t.evaluated d tol).snapshot.IsAtRest) : t.deformedChord d = t.reference.chord := by
  have hlength : (t.deformedChord d).norm = t.reference.chord.norm :=
    hrest.deformedLength.trans h.length
  have hdirection : Triad.direction (t.deformedChord d) = Triad.direction t.reference.chord :=
    (congrArg Mat3.c1 hrest.rotation).trans h.first_axis
  have hpos := h.determined.length_pos.ne'
  calc t.deformedChord d = (t.deformedChord d).norm • Triad.direction (t.deformedChord d) :=
        (smul_inv_smul₀ (hlength ▸ hpos) _).symm
    _ = t.reference.chord.norm • Triad.direction t.reference.chord := by
        rw [hlength, hdirection]
    _ = t.reference.chord := smul_inv_smul₀ hpos _

/-- The state that a reset evaluates: each node turned from the reference orientation by the
rotational part it reports. -/
noncomputable def returned (t : Transformation ν ℝ) (d : Ends (Displacement ℝ)) :
    Transformation ν ℝ :=
  (t.backAtStart (Versor.ofRotation t.reference.axes)).moved (d.map Screw.rot)

theorem returned_nodalRotation (h : t.reference.IsSound tol position)
    (d : Ends (Displacement ℝ)) : (t.returned d).nodalRotation
      = d.map fun d => (Versor.turn d.rot).toMatrix * t.reference.axes := by
  have hnode (v : Vec3 ℝ) :
      (Versor.turn (v - 0)).toMatrix * (Versor.ofRotation t.reference.axes).toMatrix
        = (Versor.turn v).toMatrix * t.reference.axes := by
    rw [sub_zero, Versor.toMatrix_ofRotation h.isRotation]
  rw [returned, moved_nodalRotation]
  exact Ends.ext (hnode _) (hnode _)

/-- **A reset succeeds exactly where a triad is determined**, and commits what it finds. -/
theorem reset_cases (h0 : 0 ≤ tol.parallel) (h : t.IsSound tol position) (hbound : IsBound t nodes)
    (trial : ν → Displacement ℝ) :
    let d := t.displacement (nodes.map trial)
    (Determines tol (t.returned d) d
        ∧ t.reset tol trial = .ok ((t.returned d).evaluated d tol).snapshot ())
      ∨ (¬ Determines tol (t.returned d) d ∧ ∃ u e, t.reset tol trial = .fail u e) := by
  intro d
  have hq := Versor.ofRotation_square h.reference.isRotation
  have hversors := h.versors.backAtStart (t := t) hq
  rw [reset_of_bound hbound.bound? (Versor.ofMatrix_eq h.reference.isRotation)]
  have hstart : IsBound (t.backAtStart (Versor.ofRotation t.reference.axes)) nodes :=
    ⟨hbound.stage, hbound.nodes⟩
  rcases update_cases h0 hversors hstart trial with
    ⟨hdet, heq⟩ | ⟨hdet, e, heq⟩
  · have hcommit := commit_of_bound (t := (t.returned d).evaluated d tol)
      (bound?_eq_ok_iff.mpr ⟨nofun, hbound.nodes⟩)
    rw [heq, Outcome.ok_andThen]
    exact .inl ⟨hdet, hcommit⟩
  · rw [heq, Outcome.fail_andThen]
    exact .inr ⟨hdet, _, e, rfl⟩

/-- **A reset returns to the reference configuration** exactly if the rotational parts turn
neither node and the translations are the same at both, captured displacements taken away. -/
theorem reset_isAtRest_iff (h0 : 0 ≤ tol.parallel) (h : t.IsSound tol position)
    (hbound : IsBound t nodes) (trial : ν → Displacement ℝ) :
    let d := t.displacement (nodes.map trial)
    (t.reset tol trial).result = .ok () ∧ (t.reset tol trial).state.IsAtRest
      ↔ (Versor.turn d.i.rot).toMatrix = 1 ∧ (Versor.turn d.j.rot).toMatrix = 1
        ∧ d.i.lin = d.j.lin := by
  intro d
  have hr : (t.returned d).reference.IsSound tol position := h.reference
  have hrotation := returned_nodalRotation h.reference d
  have hturn (v : Vec3 ℝ) : (Versor.turn v).toMatrix * t.reference.axes = t.reference.axes
      ↔ (Versor.turn v).toMatrix = 1 := by
    have hm := h.reference.isRotation.mul_transpose
    refine ⟨fun heq => ?_, fun heq => by rw [heq, one_mul]⟩
    rw [← mul_one (Versor.turn v).toMatrix, ← hm, ← mul_assoc, heq]
  constructor
  · rintro ⟨hok, hrest⟩
    rcases reset_cases h0 h hbound trial with ⟨-, heq⟩ | ⟨-, u, e, heq⟩
    · rw [heq] at hrest
      have hboth := hrotation.symm.trans hrest.nodalRotation
      refine ⟨(hturn _).mp (congrArg Ends.i hboth), (hturn _).mp (congrArg Ends.j hboth), ?_⟩
      refine (deformedChord_eq_iff hr d).mp ?_
      rw [chord_of_isAtRest hr hrest, (undeformed_chord hr hrest.nodalRotation).2]
    · rw [heq] at hok
      cases hok
  · rintro ⟨hi, hj, hlin⟩
    have hboth : (t.returned d).nodalRotation = .both t.reference.axes := by
      rw [hrotation]
      exact Ends.ext ((hturn _).mpr hi) ((hturn _).mpr hj)
    obtain ⟨hdet, hrest⟩ := isAtRest_of_undeformed hr hboth hlin
    rcases reset_cases h0 h hbound trial with ⟨-, heq⟩ | ⟨hnot, -⟩
    · rw [heq]
      exact ⟨rfl, hrest⟩
    · exact absurd hdet hnot

end Transformation

/-! ## Where nodes were bound -/

namespace Session

section Sites

variable {ν α : Type} [Scalar α] {tol : Tolerances α} {s : Session ν α}

/-- What is noted of where nodes are bound: their positions, once these have a reference
geometry. -/
def noteSite (tol : Tolerances α) (s : Session ν α) (site : Option (Ends (Vec3 α)))
    (c : Call ν α) : Option (Ends (Vec3 α)) :=
  match c.positions? with
  | none => site
  | some position =>
    match Transformation.referenceOf tol s.transformation.config position with
    | .error _ => site
    | .ok _ => some position

/-- Positions with a reference geometry are noted. -/
theorem noteSite_of_reference (site : Option (Ends (Vec3 α))) {c : Call ν α}
    {position : Ends (Vec3 α)} (hc : c.positions? = some position) {r : Reference α}
    (href : Transformation.referenceOf tol s.transformation.config position = .ok r) :
    noteSite tol s site c = some position := by
  simp only [noteSite, hc, href]

/-- The positions at which a run has last bound nodes. -/
def site (tol : Tolerances α) (config : Configuration α) (calls : List (Call ν α)) :
    Option (Ends (Vec3 α)) := observed tol config (noteSite tol) none calls

/-- Bound nodes have the reference geometry of the positions noted, and displacements were
looked for. -/
def IsSited (tol : Tolerances α) (s : Session ν α) (site : Option (Ends (Vec3 α))) : Prop :=
  ∀ nodes, s.transformation.nodes = some nodes → s.transformation.capture ≠ .unchecked
    ∧ ∀ position, site = some position →
      Transformation.referenceOf tol s.transformation.config position
        = .ok s.transformation.reference

/-- What keeps the binding keeps the note right. -/
theorem IsSited.of_sameBinding {site : Option (Ends (Vec3 α))} (h : s.IsSited tol site)
    {t : Transformation ν α} (ht : s.transformation.SameBinding t) {s' : Session ν α}
    (hs' : s'.transformation = t) : s'.IsSited tol site := by
  subst hs'
  intro nodes hnodes
  rw [ht.nodes] at hnodes
  rw [ht.capture, ht.config, ht.reference]
  exact h nodes hnodes

/-- An attachment notes the positions it binds. -/
theorem next_attach_isSited {site : Option (Ends (Vec3 α))} (h : s.IsSited tol site)
    (pair : List (Option (ν × Node α))) :
    (s.next tol (.attach pair)).IsSited tol (noteSite tol s site (.attach pair)) := by
  by_cases hpair : ∃ m n, pair = [some m, some n]
  · obtain ⟨⟨i, ni⟩, ⟨j, nj⟩, rfl⟩ := hpair
    cases href : Transformation.referenceOf tol s.transformation.config
      ⟨ni.position, nj.position⟩ with
    | error e =>
      have hnote : noteSite tol s site (.attach [some (i, ni), some (j, nj)]) = site := by
        simp only [noteSite, Call.positions?, href]
      rw [hnote]
      exact h.of_sameBinding (.refl _)
        (congrArg Outcome.state (Transformation.attach_of_error href))
    | ok r =>
      have hnote : noteSite tol s site (.attach [some (i, ni), some (j, nj)])
          = some ⟨ni.position, nj.position⟩ := noteSite_of_reference site rfl href
      rw [hnote]
      have hbinding := Transformation.attach_sameBinding (i := i) (j := j) href
      have hplaces := s.transformation.places_placed ⟨i, j⟩ ⟨ni.trial, nj.trial⟩ r
      rintro nodes -
      simp only [next, Call.perform]
      rw [hbinding.capture, hbinding.config, hbinding.reference, hplaces.config]
      refine ⟨hplaces.capture, fun position hposition => ?_⟩
      cases hposition
      exact href
  · have hnot (m n : ν × Node α) : pair ≠ [some m, some n] := fun heq => hpair ⟨m, n, heq⟩
    have hnote : noteSite tol s site (.attach pair) = site := by
      have hnone : (Call.attach pair).positions? = none := by
        unfold Call.positions?
        split
        · rename_i heq
          exact absurd (Call.attach.inj heq) (hnot _ _)
        · rfl
      simp only [noteSite, hnone]
    rw [hnote]
    exact h.of_sameBinding (.refl _)
      (congrArg Outcome.state (Transformation.attach_of_not_pair _ hnot))

/-- **One operation keeps the note right**, whether it succeeds or not. -/
theorem next_isSited {site : Option (Ends (Vec3 α))} (h : s.IsSited tol site) (c : Call ν α) :
    (s.next tol c).IsSited tol (noteSite tol s site c) := by
  by_cases hattach : ∃ pair, c = .attach pair
  · obtain ⟨pair, rfl⟩ := hattach
    exact next_attach_isSited h pair
  · have hc (pair : List (Option (ν × Node α))) : c ≠ .attach pair :=
      fun heq => hattach ⟨pair, heq⟩
    have hnote : noteSite tol s site c = site := by
      cases c with
      | attach pair => exact absurd rfl (hc pair)
      | _ => rfl
    rw [hnote]
    exact h.of_sameBinding (Call.perform_sameBinding tol _ hc) rfl

/-- **The note of every run is right.** -/
theorem run_isSited (config : Configuration α) (calls : List (Call ν α)) :
    (run tol config calls).IsSited tol (site tol config calls) :=
  observed_induction (R := fun s site => s.IsSited tol site) nofun
    (fun _ _ c h => next_isSited h c) calls

/-- **Where no displacements are captured there are none** to be taken away, after any run. -/
theorem run_initial (config : Configuration α) (calls : List (Call ν α))
    (h : (run tol config calls).transformation.capture ≠ .captured) :
    (run tol config calls).transformation.initial = .both .zero := by
  induction calls using List.reverseRecOn with
  | nil => rfl
  | append_singleton calls c ih =>
    rw [run_append] at h ⊢
    set s := run tol config calls
    -- only an attachment captures, and none was captured before if none is after it
    by_cases hattach : ∃ pair, c = .attach pair
    · obtain ⟨pair, rfl⟩ := hattach
      simp only [next, Call.perform] at h ⊢
      rcases s.transformation.attach_state_cases tol pair with
        heq | ⟨i, ni, j, nj, r, -, -, hbinding⟩
      · rw [heq] at h ⊢
        exact ih h
      · rw [hbinding.capture] at h
        obtain ⟨hcapture, hinitial⟩ := s.transformation.lookForDisplacements_initial _ h
        rw [hbinding.initial]
        exact hinitial.trans (ih hcapture)
    · have hbinding := Call.perform_sameBinding tol s.transformation (c := c)
        fun pair heq => hattach ⟨pair, heq⟩
      simp only [next] at h ⊢
      rw [hbinding.capture] at h
      rw [hbinding.initial]
      exact ih h

end Sites

section Twisted

open Transformation (twisted)

variable [SeriesAngle] {tol : Tolerances ℝ}

/-- The operations by which the twisted element came about. -/
noncomputable def twistedCalls : List (Call Bool ℝ) :=
  [.attach [some (false, .ofPosition .null 0), some (true, .ofPosition .null ⟨1, 0, 0⟩)],
    .update (pairTrial (twisted 1))]

/-- A session that binds two nodes and does nothing else. -/
theorem run_attach (h0 : 0 ≤ tol.parallel) {config : Configuration ℝ} {ν : Type} {i j : ν}
    (ni nj : Node ℝ) {r : Reference ℝ}
    (href : Transformation.referenceOf tol config ⟨ni.position, nj.position⟩ = .ok r) :
    (run tol config [.attach [some (i, ni), some (j, nj)]]).transformation
      = (Transformation.ofConfiguration config : Transformation ν ℝ).attached ⟨i, j⟩
        ⟨ni.trial, nj.trial⟩ r :=
  (Transformation.attach_eq h0 href).2

theorem standard_parallel_lt_one : (Tolerances.standard : Tolerances ℝ).parallel < 1 :=
  Tolerances.standard_parallel_lt_cos.trans_le (Real.cos_le_one 1)

omit [SeriesAngle] in
/-- Its nodes were bound at the end points, and not displaced then. -/
theorem twistedCalls_binding :
    letI : SeriesAngle := .exact
    let t := (run .standard straight twistedCalls).transformation
    t.stage ≠ .uninitialized ∧ t.capture = .none ∧ t.bound? = .ok ⟨false, true⟩
      ∧ site .standard straight twistedCalls = some ⟨0, ⟨1, 0, 0⟩⟩ := by
  let _ : SeriesAngle := .exact
  intro t
  have h0 := Tolerances.standard_admissible_exact.parallel_nonneg
  obtain ⟨hcurrent, hnodes, -⟩ : t.stage = .current ∧ t.nodes = some ⟨false, true⟩ ∧ _ :=
    twistedSession_standard
  have hstage : t.stage ≠ .uninitialized := by
    rw [hcurrent]
    exact nofun
  obtain ⟨r, href, -⟩ := straight_reference h0 standard_parallel_lt_one
  refine ⟨hstage, ?_, Transformation.bound?_eq_ok_iff.mpr ⟨hstage, hnodes⟩, ?_⟩
  · set a := (Transformation.ofConfiguration straight : Transformation Bool ℝ).attached
      ⟨false, true⟩ ⟨0, 0⟩ r
    have hsession : t = (a.update .standard (pairTrial (twisted 1))).state ∧ _ :=
      attached_session h0 href (pairTrial (twisted 1))
    have hzero : Displacement.IsZero (0 : Displacement ℝ) := by simp [Displacement.IsZero]
    have hlook : (Transformation.ofConfiguration straight : Transformation Bool ℝ
        ).lookForDisplacements ⟨0, 0⟩ = ({ Transformation.ofConfiguration straight with
          capture := .none }, []) := if_pos ⟨hzero, hzero⟩
    have hnone : a.capture = .none := congrArg (fun x => x.1.capture) hlook
    rw [hsession.1]
    exact (Transformation.update_keeps .standard _ _).capture.trans hnone
  · exact noteSite_of_reference (s := (start straight : Session Bool ℝ)) none
      (c := .attach [some (false, .ofPosition .null 0), some (true, .ofPosition .null ⟨1, 0, 0⟩)])
      rfl href

end Twisted

/-! ## Without captured displacements -/

/-- **Where nothing was captured a reset returns to the reference configuration** once the nodes
report no displacements, after any run. -/
theorem reset_uncaptured [SeriesAngle] {ν : Type} {tol : Tolerances ℝ} (h0 : 0 ≤ tol.parallel)
    {config : Configuration ℝ} {calls : List (Call ν ℝ)}
    (hstage : (run tol config calls).transformation.stage ≠ .uninitialized)
    (hcapture : (run tol config calls).transformation.capture ≠ .captured)
    {trial : ν → Displacement ℝ} (hzero : ∀ node, trial node = 0) :
    let o := (run tol config calls).transformation.reset tol trial
    o.result = .ok () ∧ o.state.IsAtRest := by
  have hsound := (run_consistent h0 config calls).sound hstage
  obtain ⟨nodes, hbound⟩ := hsound.bound
  have hdisplacement :
      (run tol config calls).transformation.displacement (nodes.map trial) = 0 := by
    rw [Transformation.displacement, run_initial config calls hcapture, Ends.map, hzero, hzero]
    exact sub_self (0 : Ends (Displacement ℝ))
  refine (Transformation.reset_isAtRest_iff h0 hsound hbound trial).mpr ?_
  rw [hdisplacement]
  exact ⟨by simp [Versor.turn_zero, Versor.toMatrix_identity],
    by simp [Versor.turn_zero, Versor.toMatrix_identity], rfl⟩

/-! ## Attached once more -/

section Reattachment

variable {ν α : Type} [Scalar α] {tol : Tolerances α}

/-- In an initialized session the reference geometry has a frame. -/
theorem IsInitialized.hasFrame {s : Session ν α} (h : s.IsInitialized tol) :
    s.transformation.reference.HasFrame tol := by
  induction h with
  | attach s hok => exact Transformation.attach_hasFrame hok
  | @refused s hs pair hstate ih =>
    have heq : (s.next tol (.attach pair)).transformation = s.transformation := hstate
    rwa [heq]
  | @next s hs c hc ih =>
    have href : (s.next tol c).transformation.reference = s.transformation.reference :=
      (Call.perform_sameBinding tol s.transformation hc).reference
    rwa [href]

/-- **A reset leaves no trace of the run before it.** Whatever the nodes report, after any run
it comes to the same as to attach the bound nodes once more where they were bound, and to
update and commit. Wherever that succeeds both leave the same state. Where it is refused the
reset is refused for the same reason, if the nodes were bound by an attachment that succeeded;
over the real numbers they always were (`isInitialized_run`). So it is as well after an
attachment that bound nodes and was refused since the axes had no versor. -/
theorem reset_eq_reattach {config : Configuration α} {calls : List (Call ν α)} {nodes : Ends ν}
    (hbound : (run tol config calls).transformation.bound? = .ok nodes) (ni nj : Node α)
    (hsite : site tol config calls = some ⟨ni.position, nj.position⟩)
    (trial : ν → Displacement α) :
    let s := run tol config calls
    let t := s.transformation
    let fresh := t.reattach tol nodes ni nj trial
    (fresh.result = .ok () → t.reset tol trial = fresh)
      ∧ (s.IsInitialized tol ∨ (∃ e, Versor.ofMatrix t.reference.axes = .error e) →
        (t.reset tol trial).result = fresh.result) := by
  intro s t fresh
  obtain ⟨hcapture, href⟩ := run_isSited config calls nodes
    (Transformation.bound?_eq_ok_iff.mp hbound).2
  obtain ⟨hsame, hresult⟩ := Transformation.reset_eq hbound (href _ hsite) hcapture trial
  refine ⟨hsame, fun h => hresult fun ⟨q, hq⟩ => ?_⟩
  rcases h with hinitialized | ⟨e, he⟩
  · exact hinitialized.hasFrame
  · cases he.symm.trans hq

end Reattachment

/-- The twisted element comes back from its twist either way. -/
theorem reset_eq_reattach_twisted :
    letI : SeriesAngle := .exact
    let t := (twistedSession .standard).transformation
    let fresh := t.reattach .standard ⟨false, true⟩ (.ofPosition .null 0)
      (.ofPosition .null ⟨1, 0, 0⟩) (pairTrial 0)
    fresh.result = .ok () ∧ t.reset .standard (pairTrial 0) = fresh := by
  let _ : SeriesAngle := .exact
  change let t := (run .standard straight twistedCalls).transformation
    let fresh := t.reattach .standard ⟨false, true⟩ (.ofPosition .null 0)
      (.ofPosition .null ⟨1, 0, 0⟩) (pairTrial 0)
    fresh.result = .ok () ∧ t.reset .standard (pairTrial 0) = fresh
  intro t fresh
  have h0 := Tolerances.standard_admissible_exact.parallel_nonneg
  obtain ⟨hstage, hcapture, hbound, hsite⟩ := twistedCalls_binding
  obtain ⟨hsame, hresult⟩ := reset_eq_reattach hbound (.ofPosition .null 0)
    (.ofPosition .null ⟨1, 0, 0⟩) hsite (pairTrial 0)
  have hresult := hresult (.inl (isInitialized_run h0 straight twistedCalls hstage))
  have hok : (t.reset .standard (pairTrial 0)).result = .ok () :=
    (reset_uncaptured h0 hstage (by rw [hcapture]; exact nofun)
      fun node => by cases node <;> rfl).1
  exact ⟨hresult.symm.trans hok, hsame (hresult.symm.trans hok)⟩

/-! ## Back to the reference configuration -/

section Return

open Transformation (twisted)

variable [SeriesAngle] {ν : Type} {tol : Tolerances ℝ}

/-- Nodes that were reset have minus what was captured for displacements. -/
theorem returned_displacement (t : Transformation ν ℝ) (node : ν → Node ℝ) (nodes : Ends ν) :
    t.displacement (nodes.map fun k => (node k).reset.trial) = -t.initial :=
  zero_sub (t.initial : Ends (Displacement ℝ))

/-- **A reset after that of the nodes returns to the reference configuration** exactly if what
was captured turns neither node and moves both alike; so it does where nothing was. -/
theorem reset_returns_iff (h0 : 0 ≤ tol.parallel) {config : Configuration ℝ}
    {calls : List (Call ν ℝ)}
    (hstage : (run tol config calls).transformation.stage ≠ .uninitialized) (node : ν → Node ℝ) :
    let t := (run tol config calls).transformation
    let o := t.reset tol fun k => (node k).reset.trial
    let p := t.initial
    (o.result = .ok () ∧ o.state.IsAtRest ↔ (Versor.turn (-p.i.rot)).toMatrix = 1
        ∧ (Versor.turn (-p.j.rot)).toMatrix = 1 ∧ p.i.lin = p.j.lin)
      ∧ (t.capture ≠ .captured → o.result = .ok () ∧ o.state.IsAtRest) := by
  intro t o p
  have hsound := (run_consistent h0 config calls).sound hstage
  obtain ⟨nodes, hbound⟩ := hsound.bound
  have hiff := Transformation.reset_isAtRest_iff h0 hsound hbound fun k => (node k).reset.trial
  rw [returned_displacement] at hiff
  refine ⟨hiff.trans ?_, fun hcapture => reset_uncaptured h0 hstage hcapture fun _ => rfl⟩
  exact and_congr_right' (and_congr_right' neg_inj)

omit [SeriesAngle] in
/-- The twisted element is back in the reference configuration once its nodes are. -/
theorem reset_returns_iff_twisted :
    letI : SeriesAngle := .exact
    let t := (twistedSession .standard).transformation
    let node (k : Bool) : Node ℝ := (Node.ofPosition .null 0).setTrial (pairTrial (twisted 1) k)
    let o := t.reset .standard fun k => (node k).reset.trial
    o.result = .ok () ∧ o.state.IsAtRest := by
  let _ : SeriesAngle := .exact
  change let t := (run .standard straight twistedCalls).transformation
    let node (k : Bool) : Node ℝ := (Node.ofPosition .null 0).setTrial (pairTrial (twisted 1) k)
    let o := t.reset .standard fun k => (node k).reset.trial
    o.result = .ok () ∧ o.state.IsAtRest
  intro t node o
  have h0 := Tolerances.standard_admissible_exact.parallel_nonneg
  obtain ⟨hstage, hcapture, -⟩ := twistedCalls_binding
  exact (reset_returns_iff h0 hstage node).2 (by rw [hcapture]; exact nofun)

/-- The straight element with its second node a unit to the side when it is bound. -/
noncomputable def displacedCalls : List (Call Bool ℝ) :=
  [.attach [some (false, .ofPosition .null 0),
    some (true, (Node.ofPosition .null ⟨1, 0, 0⟩).setTrial ⟨⟨0, 1, 0⟩, 0⟩)]]

omit [SeriesAngle] in
/-- **With what was captured it does not return**: the unit is taken away from a node that does
not report it any more. -/
theorem reset_misses_reference :
    letI : SeriesAngle := .exact
    let t := (run .standard straight displacedCalls).transformation
    let node (_ : Bool) : Node ℝ := .ofPosition .null 0
    let o := t.reset .standard fun k => (node k).reset.trial
    t.stage ≠ .uninitialized ∧ ¬ (o.result = .ok () ∧ o.state.IsAtRest) := by
  let _ : SeriesAngle := .exact
  intro t node o
  have h0 := Tolerances.standard_admissible_exact.parallel_nonneg
  obtain ⟨r, href, -⟩ := straight_reference h0 standard_parallel_lt_one
  have ht := run_attach h0 (i := false) (j := true) (.ofPosition .null 0)
    ((Node.ofPosition .null ⟨1, 0, 0⟩).setTrial ⟨⟨0, 1, 0⟩, 0⟩) href
  change t = _ at ht
  have hinitial : t.initial = ⟨0, ⟨⟨0, 1, 0⟩, 0⟩⟩ := by
    rw [ht]
    exact attached_initial _ _ _ _
  have hstage : t.stage ≠ .uninitialized := by
    rw [ht]
    exact nofun
  have hsound := (run_consistent h0 straight displacedCalls).sound hstage
  obtain ⟨nodes, hbound⟩ := hsound.bound
  refine ⟨hstage, fun h => ?_⟩
  have hlin := ((Transformation.reset_isAtRest_iff h0 hsound hbound _).mp h).2.2
  rw [returned_displacement, hinitial] at hlin
  have hy : -(0 : ℝ) = -1 := congrArg Vec3.y hlin
  norm_num at hy

end Return

end Session

end Corotation
