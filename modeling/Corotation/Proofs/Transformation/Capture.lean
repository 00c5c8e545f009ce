import Corotation.Proofs.Transformation.Amendment
import Corotation.Proofs.Transformation.Reset
/-!
# The capture of initial displacements

What a transformation captures when its nodes are first bound enters later operations through
the displacements that the nodes report, less what was captured, and in no other way. So two
states that differ in the capture alone, with reports that differ by as much, are taken by
every operation to two such states, or both refuse it for the same reason
(`perform_recaptured`).

An element whose nodes were displaced when they were bound therefore runs as the one whose
nodes were not, as long as its nodes report the same, on top of what they reported first
(`IsShiftedRun.isShift`).
-/

namespace Corotation

namespace Transformation

section General

variable {ν α : Type} [Scalar α] {tol : Tolerances α} {t : Transformation ν α}

/-- The state with other displacements captured. -/
def recaptured (c : Capture) (p : Ends (Displacement α)) (t : Transformation ν α) :
    Transformation ν α := { t with capture := c, initial := p }

variable {c : Capture} {p : Ends (Displacement α)}

omit [Scalar α] in
theorem recaptured_eq :
    (recaptured c p : Transformation ν α → _) = amended id (fun _ => c) fun _ => p := rfl

/-- **An attachment** sets up the same, if what it puts in place differs in the capture
alone. -/
theorem attach_recaptured {t' : Transformation ν α} {i j : ν} {ni nj ni' nj' : Node α}
    {r : Reference α} (href : referenceOf tol t.config ⟨ni.position, nj.position⟩ = .ok r)
    (href' : referenceOf tol t'.config ⟨ni'.position, nj'.position⟩ = .ok r)
    (hplaced : t.placed ⟨i, j⟩ ⟨ni.trial, nj.trial⟩ r
      = (t'.placed ⟨i, j⟩ ⟨ni'.trial, nj'.trial⟩ r).recaptured c p) :
    (t.attach tol [some (i, ni), some (j, nj)]).result
        = (t'.attach tol [some (i, ni'), some (j, nj')]).result
      ∧ (t.attach tol [some (i, ni), some (j, nj)]).state
        = (t'.attach tol [some (i, ni'), some (j, nj')]).state.recaptured c p := by
  obtain ⟨hstate, hresult⟩ := attach_of_reference (i := i) (j := j) href
  obtain ⟨hstate', hresult'⟩ := attach_of_reference (i := i) (j := j) href'
  rw [hstate, hresult, hstate', hresult', hplaced, recaptured_eq, settle_amended]
  exact ⟨rfl, rfl⟩

/-- **Once displacements were looked for** no operation changes what was captured. -/
theorem perform_capture (tol : Tolerances α) (h : t.capture ≠ .unchecked) (c : Call ν α) :
    (c.perform tol t).state.capture = t.capture ∧ (c.perform tol t).state.initial = t.initial := by
  by_cases hattach : ∃ pair, c = .attach pair
  · obtain ⟨pair, rfl⟩ := hattach
    rcases t.attach_state_cases tol pair with heq | ⟨i, ni, j, nj, r, -, -, hbinding⟩
    · rw [Call.perform, heq]
      exact ⟨rfl, rfl⟩
    · rw [placed, lookForDisplacements_of_checked h] at hbinding
      exact ⟨hbinding.capture, hbinding.initial⟩
  · have hbinding := Call.perform_sameBinding tol t (c := c) fun pair heq => hattach ⟨pair, heq⟩
    exact ⟨hbinding.capture, hbinding.initial⟩

end General

end Transformation

/-! ## Two runs -/

/-- What the capture becomes for displacements found. -/
def Capture.ofFound {α : Type} [Scalar α] (p : Ends (Displacement α)) : Capture :=
  if Displacement.IsZero p.i ∧ Displacement.IsZero p.j then .none else .captured

/-- The nodes have the same name and the same position. -/
def SameNode {ν α : Type} (m n : ν × Node α) : Prop := m.1 = n.1 ∧ m.2.position = n.2.position

/-- The same nodes are two in both lists, or in neither. -/
theorem sameNodes_cases {ν α : Type} {pair pair' : List (Option (ν × Node α))}
    (h : List.Forall₂ (Option.Rel SameNode) pair pair') :
    (∃ i ni j nj ni' nj', pair = [some (i, ni), some (j, nj)]
        ∧ pair' = [some (i, ni'), some (j, nj')]
        ∧ ni.position = ni'.position ∧ nj.position = nj'.position)
      ∨ (∀ m n, pair ≠ [some m, some n]) ∧ ∀ m n, pair' ≠ [some m, some n] := by
  by_cases hpair : ∃ m n, pair = [some m, some n]
  · obtain ⟨⟨i, ni⟩, ⟨j, nj⟩, rfl⟩ := hpair
    obtain _ | ⟨⟨rfl, hi⟩, _ | ⟨⟨rfl, hj⟩, ⟨⟩⟩⟩ := h
    exact .inl ⟨_, ni, _, nj, _, _, rfl, rfl, hi, hj⟩
  · refine .inr ⟨fun m n heq => hpair ⟨m, n, heq⟩, ?_⟩
    rintro m n rfl
    obtain _ | ⟨⟨-⟩, _ | ⟨⟨-⟩, ⟨⟩⟩⟩ := h
    exact hpair ⟨_, _, rfl⟩

namespace Call

/-- What the nodes report that the operation binds, if there are two. -/
def found? {ν α : Type} : Call ν α → Option (Ends (Displacement α))
  | attach [some (_, ni), some (_, nj)] => some ⟨ni.trial, nj.trial⟩
  | _ => none

variable [SeriesAngle] {ν : Type} {tol : Tolerances ℝ} {p : Ends (Displacement ℝ)}

/-- The first operation is the second one with nodes that report `p` more. An attachment is
given the same nodes; the first one that is accepted finds them at `p` in the one case, and
not displaced in the other. -/
inductive IsShifted (tol : Tolerances ℝ) (p : Ends (Displacement ℝ)) (t : Transformation ν ℝ) :
    Call ν ℝ → Call ν ℝ → Prop
  /-- The same nodes are bound. -/
  | attach {pair pair' : List (Option (ν × Node ℝ))}
      (hnodes : List.Forall₂ (Option.Rel SameNode) pair pair')
      (hfirst : t.stage = .uninitialized → (t.attach tol pair').result = .ok () →
        (attach pair).found? = some p ∧ (attach pair').found? = some 0) :
      IsShifted tol p t (.attach pair) (.attach pair')
  /-- The bound nodes are followed. -/
  | update {trial trial' : ν → Displacement ℝ}
      (h : ∀ nodes, t.nodes = some nodes → nodes.map trial = p + nodes.map trial') :
      IsShifted tol p t (.update trial) (.update trial')
  /-- Nothing is reported. -/
  | commit : IsShifted tol p t .commit .commit
  /-- The committed state is restored. -/
  | revert {trial trial' : ν → Displacement ℝ}
      (h : ∀ nodes, t.nodes = some nodes → nodes.map trial = p + nodes.map trial') :
      IsShifted tol p t (.revert trial) (.revert trial')
  /-- The reference configuration is restored. -/
  | reset {trial trial' : ν → Displacement ℝ}
      (h : ∀ nodes, t.nodes = some nodes → nodes.map trial = p + nodes.map trial') :
      IsShifted tol p t (.reset trial) (.reset trial')

end Call

namespace Transformation

variable [SeriesAngle] {ν : Type} {tol : Tolerances ℝ} {p : Ends (Displacement ℝ)}
variable {t t' : Transformation ν ℝ}

theorem isZero_iff : Displacement.IsZero p.i ∧ Displacement.IsZero p.j ↔ p = 0 := by
  simp only [Displacement.IsZero, Vec3.isZero_iff]
  constructor
  · rintro ⟨⟨hil, hir⟩, hjl, hjr⟩
    exact Slots.ext_slots hil hir hjl hjr
  · rintro rfl
    exact ⟨⟨rfl, rfl⟩, rfl, rfl⟩

/-- Displacements are captured exactly if there are some. -/
theorem ofFound_eq_captured : Capture.ofFound p = .captured ↔ p ≠ 0 := by
  unfold Capture.ofFound
  rw [ite_eq_right_iff, isZero_iff]
  exact ⟨fun h hp => absurd (h hp) nofun, fun h hp => absurd hp h⟩

theorem ofFound_zero : Capture.ofFound (0 : Ends (Displacement ℝ)) = .none :=
  if_pos (isZero_iff.mpr rfl)

theorem ofFound_ne_unchecked : Capture.ofFound p ≠ .unchecked := by
  unfold Capture.ofFound
  split <;> exact nofun

/-- **What is found first is captured**, if there is anything. -/
theorem lookForDisplacements_first (hcapture : t.capture = .unchecked) (hinitial : t.initial = 0)
    (p : Ends (Displacement ℝ)) :
    (t.lookForDisplacements p).1 = { t with capture := .ofFound p, initial := p } := by
  unfold lookForDisplacements Capture.ofFound
  simp only [hcapture]
  by_cases hzero : Displacement.IsZero p.i ∧ Displacement.IsZero p.j
  · rw [if_pos hzero, if_pos hzero, isZero_iff.mp hzero, ← hinitial]
  · rw [if_neg hzero, if_neg hzero]

/-- The first state is the second one with `p` captured, once nodes are bound. -/
inductive IsShift (p : Ends (Displacement ℝ)) : Transformation ν ℝ → Transformation ν ℝ → Prop
  /-- Before that they are the same, and displacements were not looked for. -/
  | unbound (t : Transformation ν ℝ) (hstage : t.stage = .uninitialized)
      (hcapture : t.capture = .unchecked) (hinitial : t.initial = 0) : IsShift p t t
  /-- None were found in the second one. -/
  | bound (t : Transformation ν ℝ) (hstage : t.stage ≠ .uninitialized)
      (hcapture : t.capture = .none) (hinitial : t.initial = 0) :
      IsShift p (t.recaptured (.ofFound p) p) t

/-- **Nothing shows the shift** but the capture. -/
theorem IsShift.answers (tol : Tolerances ℝ) (h : IsShift p t t') :
    t.stage = t'.stage ∧ t.reference = t'.reference
    ∧ t.deformedLength = t'.deformedLength ∧ t.deformation = t'.deformation
    ∧ t.variation = t'.variation ∧ t.triad = t'.triad ∧ t.nodalRotation = t'.nodalRotation
    ∧ t.tangent? = t'.tangent? ∧ (∀ pl, t.pushForce pl = t'.pushForce pl)
    ∧ ∀ kl pl, t.pushStiffness tol kl pl = t'.pushStiffness tol kl pl := by
  cases h <;> exact ⟨rfl, rfl, rfl, rfl, rfl, rfl, rfl, rfl, fun _ => rfl, fun _ _ => rfl⟩

/-- What was captured in the two runs. -/
theorem IsShift.captures (h : IsShift p t t') :
    (t.stage = .uninitialized → t.capture = .unchecked ∧ t'.capture = .unchecked)
      ∧ (t.stage ≠ .uninitialized → t.capture ≠ .unchecked ∧ (t.capture = .captured ↔ p ≠ 0)
        ∧ t'.capture = .none) := by
  cases h with
  | unbound t hstage hcapture hinitial =>
    exact ⟨fun _ => ⟨hcapture, hcapture⟩, fun h => absurd hstage h⟩
  | bound t hstage hcapture hinitial =>
    exact ⟨fun h => absurd h hstage, fun _ => ⟨ofFound_ne_unchecked, ofFound_eq_captured, hcapture⟩⟩

/-- The nodes are found at the same displacements. -/
theorem displacement_shift (hinitial : t.initial = 0) {nodes : Ends ν}
    {trial trial' : ν → Displacement ℝ} (h : nodes.map trial = p + nodes.map trial') (c : Capture) :
    (t.recaptured c p).displacement (nodes.map trial) = t.displacement (nodes.map trial') := by
  change (nodes.map trial : Ends (Displacement ℝ)) - p
    = (nodes.map trial' : Ends (Displacement ℝ)) - t.initial
  rw [h, hinitial, add_sub_cancel_left, sub_zero]

/-- What an attachment puts in place in the two runs. -/
theorem IsShift.placed (h : IsShift p t t') (nodes : Ends ν) (r : Reference ℝ)
    {d d' : Ends (Displacement ℝ)} (hfirst : t'.stage = .uninitialized → d = p ∧ d' = 0) :
    t.placed nodes d r = (t'.placed nodes d' r).recaptured (.ofFound p) p
      ∧ (t'.placed nodes d' r).capture = .none ∧ (t'.placed nodes d' r).initial = 0 := by
  unfold Transformation.placed
  cases h with
  | unbound t hstage hcapture hinitial =>
    obtain ⟨rfl, rfl⟩ := hfirst hstage
    rw [lookForDisplacements_first hcapture hinitial, lookForDisplacements_first hcapture hinitial,
      ofFound_zero]
    exact ⟨rfl, rfl, rfl⟩
  | bound t hstage hcapture hinitial =>
    have hchecked : t'.capture ≠ .unchecked := by
      rw [hcapture]
      exact nofun
    rw [lookForDisplacements_of_checked hchecked,
      lookForDisplacements_of_checked (t := t'.recaptured (.ofFound p) p) ofFound_ne_unchecked]
    exact ⟨rfl, hcapture, hinitial⟩

/-- Nodes are attached in both runs, or refused in both for the same reason. -/
theorem IsShift.attach (h0 : 0 ≤ tol.parallel) (h : IsShift p t t')
    {pair pair' : List (Option (ν × Node ℝ))}
    (hnodes : List.Forall₂ (Option.Rel SameNode) pair pair')
    (hfirst : t'.stage = .uninitialized → (t'.attach tol pair').result = .ok () →
      (Call.attach pair).found? = some p ∧ (Call.attach pair').found? = some 0) :
    (t.attach tol pair).result = (t'.attach tol pair').result
      ∧ IsShift p (t.attach tol pair).state (t'.attach tol pair').state := by
  have hconfig : t.config = t'.config := by cases h <;> rfl
  rcases sameNodes_cases hnodes with
    ⟨i, ni, j, nj, ni', nj', rfl, rfl, hi, hj⟩ | ⟨hpair, hpair'⟩
  · cases href : referenceOf tol t'.config ⟨ni'.position, nj'.position⟩ with
    | error e =>
      rw [attach_of_error href, attach_of_error (hconfig ▸ hi ▸ hj ▸ href)]
      exact ⟨rfl, h⟩
    | ok r =>
      have href' : referenceOf tol t.config ⟨ni.position, nj.position⟩ = .ok r := by
        rw [hconfig, hi, hj, href]
      have hok := (attach_eq (i := i) (j := j) h0 href).1
      obtain ⟨hstage, -⟩ := attach_ok hok
      have hbinding := attach_sameBinding (i := i) (j := j) href
      obtain ⟨hplaced, hcapture, hinitial⟩ := h.placed ⟨i, j⟩ r fun hstage' => by
        obtain ⟨hfound, hfound'⟩ := hfirst hstage' hok
        exact ⟨Option.some.inj hfound, Option.some.inj hfound'⟩
      obtain ⟨hresult, hstate⟩ := attach_recaptured (i := i) (j := j) href' href hplaced
      refine ⟨hresult, ?_⟩
      rw [hstate]
      exact .bound _ (by rw [hstage]; exact nofun) (hbinding.capture.trans hcapture)
        (hbinding.initial.trans hinitial)
  · have htag : t.tag = t'.tag := congrArg Configuration.tag hconfig
    rw [t.attach_of_not_pair hpair, t'.attach_of_not_pair hpair', htag]
    exact ⟨rfl, h⟩

/-- Of bound nodes every operation makes the same, but for what was captured. -/
theorem perform_recaptured {c c' : Call ν ℝ} (hc : Call.IsShifted tol p t' c c')
    (hinitial : t'.initial = 0) (hattach : ∀ pair, c' ≠ .attach pair) :
    c.perform tol (t'.recaptured (.ofFound p) p)
      = (c'.perform tol t').mapState (recaptured (.ofFound p) p) := by
  have htag (k : Configuration ℝ) : (id k).tag = k.tag := rfl
  have hd {trial trial' : ν → Displacement ℝ}
      (h : ∀ nodes, t'.nodes = some nodes → nodes.map trial = p + nodes.map trial')
      (nodes : Ends ν) (hbound : t'.bound? = .ok nodes) :=
    displacement_shift hinitial (h nodes (bound?_eq_ok_iff.mp hbound).2) (.ofFound p)
  rw [recaptured_eq] at hd ⊢
  cases hc with
  | attach _ _ => exact absurd rfl (hattach _)
  | update h => exact update_amended htag (hd h)
  | commit => exact commit_amended htag
  | revert h => exact revert_amended htag (hd h)
  | reset h => exact reset_amended htag (hd h)

/-- **Every operation** keeps the two runs a shift apart, and is accepted in both or refused in
both for the same reason. -/
theorem IsShift.perform (h0 : 0 ≤ tol.parallel) (h : IsShift p t t') {c c' : Call ν ℝ}
    (hc : Call.IsShifted tol p t' c c') :
    (c.perform tol t).result = (c'.perform tol t').result
      ∧ IsShift p (c.perform tol t).state (c'.perform tol t').state := by
  -- an attachment may bind for the first time; any other operation finds nodes bound in both
  -- states, or is refused by both
  by_cases hattach : ∃ pair, c' = .attach pair
  · obtain ⟨pair', rfl⟩ := hattach
    cases hc with
    | attach hnodes hfirst => exact h.attach h0 hnodes hfirst
  have hc' (pair) : c' ≠ .attach pair := fun heq => hattach ⟨pair, heq⟩
  have hnot (pair) : c ≠ .attach pair := by
    rintro rfl
    cases hc with
    | attach hnodes hfirst => exact hc' _ rfl
  cases hbound : t'.bound? with
  | error e =>
    have hbound' : t.bound? = .error e := by cases h <;> exact hbound
    rw [Call.perform_of_unbound hbound hc', Call.perform_of_unbound hbound' hnot]
    exact ⟨rfl, h⟩
  | ok nodes =>
    have hbinding := Call.perform_sameBinding tol t' hc'
    obtain ⟨hstage, hnodes⟩ := bound?_eq_ok_iff.mp hbound
    cases h with
    | unbound t huninitialized hcapture hinitial => exact absurd huninitialized hstage
    | bound t _ hcapture hinitial =>
      have hperform := perform_recaptured hc hinitial hc'
      rw [hperform]
      exact ⟨rfl, .bound _ (hbinding.stage hstage) (hbinding.capture.trans hcapture)
        (hbinding.initial.trans hinitial)⟩

end Transformation

/-! ## Runs -/

namespace Session

variable [SeriesAngle] {ν : Type} {tol : Tolerances ℝ} {p : Ends (Displacement ℝ)}

/-- Operations of two runs in turn, a shift apart; the second run starts from a given
session. -/
inductive IsShiftedRun (tol : Tolerances ℝ) (p : Ends (Displacement ℝ)) :
    Session ν ℝ → List (Call ν ℝ) → List (Call ν ℝ) → Prop
  /-- Neither goes on. -/
  | nil (s : Session ν ℝ) : IsShiftedRun tol p s [] []
  /-- Both go on. -/
  | cons {s : Session ν ℝ} {c c' : Call ν ℝ} {calls calls' : List (Call ν ℝ)}
      (hc : Call.IsShifted tol p s.transformation c c')
      (hcalls : IsShiftedRun tol p (s.next tol c') calls calls') :
      IsShiftedRun tol p s (c :: calls) (c' :: calls')

/-- **The runs stay a shift apart.** -/
theorem IsShiftedRun.isShift (h0 : 0 ≤ tol.parallel) {s s' : Session ν ℝ}
    {calls calls' : List (Call ν ℝ)} (hcalls : IsShiftedRun tol p s' calls calls')
    (h : Transformation.IsShift p s.transformation s'.transformation) :
    Transformation.IsShift p (calls.foldl (next tol) s).transformation
      (calls'.foldl (next tol) s').transformation := by
  -- the second session is the one the relation goes through, the first one just follows
  induction hcalls generalizing s with
  | nil s' => exact h
  | cons hc _ ih => exact ih (h.perform h0 hc).2

omit [SeriesAngle] in
/-- Once displacements were looked for no sequence of operations changes what was captured. -/
theorem foldl_capture {ν α : Type} [Scalar α] {tol : Tolerances α} {s : Session ν α}
    (h : s.transformation.capture ≠ .unchecked) (later : List (Call ν α)) :
    (later.foldl (next tol) s).transformation.capture = s.transformation.capture
      ∧ (later.foldl (next tol) s).transformation.initial = s.transformation.initial := by
  induction later generalizing s with
  | nil => exact ⟨rfl, rfl⟩
  | cons c later ih =>
    obtain ⟨hcapture, hinitial⟩ := Transformation.perform_capture tol h c
    have hnext : (s.next tol c).transformation.capture ≠ .unchecked := by
      rw [next, hcapture]
      exact h
    obtain ⟨hlater, hlater'⟩ := ih hnext
    exact ⟨hlater.trans hcapture, hlater'.trans hinitial⟩

/-- **The capture is transparent.** Of one configuration let two runs be a shift apart: the same
nodes are bound, displaced by `p` when they are first bound in the one run and not displaced in
the other, and from then on they report `p` more in the first run than in the second. Then
every further operation is accepted in both or refused in both for the same reason, and all
that can be asked of the transformation is answered alike. Once nodes are bound the capture of
the first run is `captured` exactly if `p` is not zero, that of the second one is `none`, and
no later operation changes what the first run has captured. -/
theorem capture_transparent (h0 : 0 ≤ tol.parallel) (config : Configuration ℝ)
    {calls calls' : List (Call ν ℝ)} (hcalls : IsShiftedRun tol p (start config) calls calls') :
    let t := (run tol config calls).transformation
    let t' := (run tol config calls').transformation
    (∀ c c', Call.IsShifted tol p t' c c' → (c.perform tol t).result = (c'.perform tol t').result)
      ∧ t.stage = t'.stage ∧ t.reference = t'.reference
      ∧ t.deformedLength = t'.deformedLength ∧ t.deformation = t'.deformation
      ∧ t.variation = t'.variation ∧ t.triad = t'.triad ∧ t.nodalRotation = t'.nodalRotation
      ∧ t.tangent? = t'.tangent? ∧ (∀ pl, t.pushForce pl = t'.pushForce pl)
      ∧ (∀ kl pl, t.pushStiffness tol kl pl = t'.pushStiffness tol kl pl)
      ∧ (t.stage = .uninitialized → t.capture = .unchecked ∧ t'.capture = .unchecked)
      ∧ (t.stage ≠ .uninitialized → (t.capture = .captured ↔ p ≠ 0) ∧ t'.capture = .none
        ∧ ∀ later, (run tol config (calls ++ later)).transformation.capture = t.capture
          ∧ (run tol config (calls ++ later)).transformation.initial = t.initial) := by
  intro t t'
  have h : Transformation.IsShift p t t' := hcalls.isShift h0 (.unbound _ rfl rfl rfl)
  have hlater (hchecked : t.capture ≠ .unchecked) (later : List (Call ν ℝ)) :
      (run tol config (calls ++ later)).transformation.capture = t.capture
        ∧ (run tol config (calls ++ later)).transformation.initial = t.initial := by
    rw [run, List.foldl_append]
    exact foldl_capture hchecked later
  obtain ⟨hstage, hreference, hlength, hdeformation, hvariation, htriad, hrotation, htangent,
    hforce, hstiffness⟩ := h.answers tol
  obtain ⟨hbefore, hafter⟩ := h.captures
  refine ⟨fun c c' hc => (h.perform h0 hc).1, hstage, hreference, hlength, hdeformation, hvariation,
    htriad, hrotation, htangent, hforce, hstiffness, hbefore, fun hbound => ?_⟩
  obtain ⟨hchecked, hcaptured, hnone⟩ := hafter hbound
  exact ⟨hcaptured, hnone, hlater hchecked⟩

/-- The unit that the second node is to the side when the straight element is bound. -/
noncomputable def unitAside : Ends (Displacement ℝ) := ⟨0, ⟨⟨0, 1, 0⟩, 0⟩⟩

/-- The element that is twisted from there, beside the one whose nodes were in place. -/
theorem displaced_isShiftedRun (hp : 0 ≤ tol.parallel) (h1 : tol.parallel < 1) :
    IsShiftedRun tol unitAside (start straight)
      (displacedCalls ++ [.update (pairTrial (unitAside + Transformation.twisted 1))])
      twistedCalls := by
  obtain ⟨r, href, -⟩ := straight_reference hp h1
  refine .cons (.attach (.cons (.some ⟨rfl, rfl⟩) (.cons (.some ⟨rfl, rfl⟩) .nil))
    fun _ _ => ⟨rfl, rfl⟩) (.cons (.update fun nodes hnodes => ?_) (.nil _))
  have hattach := run_attach hp (i := false) (j := true) (.ofPosition .null 0)
    (.ofPosition .null ⟨1, 0, 0⟩) href
  have hbound := (congrArg Transformation.nodes hattach).symm.trans hnodes
  obtain rfl : ⟨false, true⟩ = nodes := Option.some.inj hbound
  rfl

omit [SeriesAngle] in
/-- It is as twisted as the other one, and knows of the unit. -/
theorem capture_transparent_displaced :
    letI : SeriesAngle := .exact
    let t := (run .standard straight (displacedCalls
      ++ [.update (pairTrial (unitAside + Transformation.twisted 1))])).transformation
    t.stage = .current ∧ t.deformation = Transformation.twisted 1 ∧ t.capture = .captured := by
  let _ : SeriesAngle := .exact
  intro t
  have h0 := Tolerances.standard_admissible_exact.parallel_nonneg
  obtain ⟨-, hstage, -, -, hdeformation, -, -, -, -, -, -, -, hbound⟩ :=
    capture_transparent h0 straight (displaced_isShiftedRun h0 standard_parallel_lt_one)
  obtain ⟨hcurrent, -, -, htwisted⟩ := twistedSession_current le_rfl one_pos h0
    Tolerances.standard_parallel_lt_cos
  have hcurrent' : t.stage = .current := hstage.trans hcurrent
  have hne : unitAside ≠ 0 := by
    intro h
    exact one_ne_zero (congrArg (fun d : Ends (Displacement ℝ) => d.j.lin.y) h)
  have hcaptured := (hbound (hcurrent'.trans_ne nofun)).1
  exact ⟨hcurrent', hdeformation.trans htwisted, hcaptured.mpr hne⟩

end Session

end Corotation
