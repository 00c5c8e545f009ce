import Corotation.Proofs.Structure.Currency
/-!
# Restoration of a committed structure

After a commit the solver tries: displacements are set, with which some members come up to
date and others do not, some of the attempts are reverted, and responses and local forces
are asked for. The nodes keep their committed displacements through all of this, and the
members their commit (`IsAttempt.asked`). A revert first takes the nodes back, so that
every member finds what it evaluated before the commit (`IsAttempt.revert`).

What is left is the committed state in every respect but one: a member remembers other
deformations from before its latest update. No operation reads these, and no request is
answered by them, so a structure that differs from another in nothing else answers every
sequence of requests as the other does (`IsAlike.answers_eq`).

No law of arithmetic is used but that a rotational part less itself has no length, which all of
them fulfil over the real numbers (`isRestored_after`).
-/

namespace Corotation

/-! ## Outcomes alike -/

namespace Outcome

variable {α σ β γ : Type} {r : σ → σ → Prop} {o o' : Outcome α σ β} {f : σ → Outcome α σ Unit}

/-- Outcomes with the same remarks and the same result, which leave states that are
related. -/
structure IsAlike (r : σ → σ → Prop) (o o' : Outcome α σ β) : Prop where
  state : r o.state o'.state
  notices : o'.notices = o.notices
  result : o'.result = o.result

/-- Second operations after outcomes that are alike. -/
theorem IsAlike.andThen {next : σ → β → Outcome α σ γ} (h : IsAlike r o o')
    (hnext : ∀ s s' b, r s s' → IsAlike r (next s b) (next s' b)) :
    IsAlike r (o.andThen next) (o'.andThen next) := by
  unfold Outcome.andThen
  rw [h.result]
  cases o.result with
  | error e => exact ⟨h.state, h.notices, rfl⟩
  | ok b =>
    have hsecond := hnext _ _ b h.state
    refine ⟨hsecond.state, ?_, hsecond.result⟩
    simp only [h.notices, hsecond.notices]

/-- The state is that of the first operation where the second only answers. -/
theorem andThen_ok_state (o : Outcome α σ β) (g : β → γ) :
    (o.andThen fun s b => .ok s (g b)).state = o.state := by
  unfold Outcome.andThen
  cases o.result with
  | error e => rfl
  | ok b => rfl

/-- **A loop over related lists**, whose step is alike on what is related. -/
theorem forEach_isAlike (hf : ∀ x x', r x x' → IsAlike r (f x) (f x')) {xs xs' : List σ}
    (h : List.Forall₂ r xs xs') :
    IsAlike (List.Forall₂ r) (forEach f xs) (forEach f xs') := by
  induction h with
  | nil => exact ⟨.nil, rfl, rfl⟩
  | @cons x x' xs xs' hx hxs ih =>
    obtain ⟨hstate, hnotices, hresult⟩ := hf x x' hx
    unfold forEach
    cases h : (f x).result with
    | error e =>
      simp only [hresult, h]
      exact ⟨.cons hstate hxs, hnotices, rfl⟩
    | ok u =>
      simp only [hresult, h]
      refine ⟨.cons hstate ih.state, ?_, ih.result⟩
      simp only [hnotices, ih.notices]

/-- **A loop succeeds** if its step does on all that is related to the members of another
list, and leaves them related to these. -/
theorem forEach_of_related {q : σ → σ → Prop}
    (hf : ∀ x x', r x x' → (f x').result = .ok () ∧ q x (f x').state) {xs xs' : List σ}
    (h : List.Forall₂ r xs xs') :
    (forEach f xs').result = .ok () ∧ List.Forall₂ q xs (forEach f xs').state := by
  have hok : ∀ x' ∈ xs', (f x').result = .ok () := by
    intro x' hx'
    obtain ⟨x, -, hx⟩ := exists_of_forall₂_right h hx'
    exact (hf x x' hx).1
  refine ⟨forEach_eq_ok_iff.mpr hok, ?_⟩
  rw [forEach_state hok]
  exact List.forall₂_map_right_iff.mpr (h.imp fun x x' hx => (hf x x' hx).2)

end Outcome

namespace Transformation

variable {ν α : Type} [Scalar α] {tol : Tolerances α} {t t' : Transformation ν α}

/-! ## What no operation reads -/

/-- The second state is the first one, but perhaps for the deformations before the latest
update. -/
def IsAlike (t t' : Transformation ν α) : Prop := ∃ previous, t' = { t with previous }

/-- Turns do not read them. -/
theorem advance_isAlike (h : IsAlike t t') (rot : Ends (Vec3 α)) :
    Outcome.IsAlike IsAlike (t.advance rot) (t'.advance rot) := by
  obtain ⟨previous, rfl⟩ := h
  unfold advance
  simp only
  cases turned rot.i t.seen.i t.versor.i with
  | error e => exact ⟨⟨previous, rfl⟩, rfl, rfl⟩
  | ok qi =>
    cases turned rot.j t.seen.j t.versor.j with
    | error e => exact ⟨⟨previous, rfl⟩, rfl, rfl⟩
    | ok qj => exact ⟨⟨previous, rfl⟩, rfl, rfl⟩

open Scalar in
/-- An evaluation forgets them, unless it fails. -/
theorem evaluate_isAlike (h : IsAlike t t') (d : Ends (Displacement α)) :
    Outcome.IsAlike IsAlike (t.evaluate tol d) (t'.evaluate tol d) := by
  obtain ⟨previous, rfl⟩ := h
  set t' : Transformation ν α := { t with previous }
  -- the chord and the triad come from the orientations, the reference and `d` alone
  have hrotation : t'.nodalRotation = t.nodalRotation := rfl
  have harm : t'.armsOf t.nodalRotation = t.armsOf t.nodalRotation := rfl
  have hchord : t'.chordOf d (t.armsOf t.nodalRotation)
      = t.chordOf d (t.armsOf t.nodalRotation) := rfl
  unfold evaluate
  simp only [hrotation, harm, hchord]
  by_cases hlength : (t.chordOf d (t.armsOf t.nodalRotation)).norm ≤ 0
  · simp only [if_pos hlength]
    exact ⟨⟨previous, rfl⟩, rfl, rfl⟩
  simp only [if_neg hlength]
  cases Triad.ofRotations tol t.nodalRotation (t.chordOf d (t.armsOf t.nodalRotation)) with
  | error e => exact ⟨⟨previous, rfl⟩, rfl, rfl⟩
  | ok triad =>
    simp only
    cases localRotations triad.axes t.nodalRotation with
    | error e => exact ⟨⟨previous, rfl⟩, rfl, rfl⟩
    | ok theta => exact ⟨⟨t.deformation, rfl⟩, rfl, rfl⟩

/-- An operation that does not read them. -/
def IsBlind (f : Transformation ν α → Outcome α (Transformation ν α) Unit) : Prop :=
  ∀ t t', IsAlike t t' → Outcome.IsAlike IsAlike (f t) (f t')

omit [Scalar α] in
/-- Whether nodes are bound does not depend on them, so they matter only where some are. -/
theorem isBlind_of_bound {f : Transformation ν α → Outcome α (Transformation ν α) Unit}
    {g : Ends ν → Transformation ν α → Outcome α (Transformation ν α) Unit}
    (hunbound : ∀ t e, t.bound? = .error e → f t = .fail t e)
    (hbound : ∀ t nodes, t.bound? = .ok nodes → f t = g nodes t) (hg : ∀ nodes, IsBlind (g nodes)) :
    IsBlind f := by
  rintro t _ ⟨previous, rfl⟩
  have hsame : ({ t with previous } : Transformation ν α).bound? = t.bound? := rfl
  cases h : t.bound? with
  | error e =>
    rw [hunbound t e h, hunbound _ e (hsame.trans h)]
    exact ⟨⟨previous, rfl⟩, rfl, rfl⟩
  | ok nodes =>
    rw [hbound t nodes h, hbound _ nodes (hsame.trans h)]
    exact hg nodes _ _ ⟨previous, rfl⟩

/-- **Updates** do not read them. -/
theorem isBlind_update (tol : Tolerances α) (trial : ν → Displacement α) :
    IsBlind fun t => t.update tol trial := by
  refine isBlind_of_bound (fun t e h => ?_) (fun t nodes h => update_of_bound h trial) ?_
  · simp only [update, h]
  · rintro nodes t _ ⟨previous, rfl⟩
    exact (advance_isAlike ⟨previous, rfl⟩ _).andThen fun t t' _ h => evaluate_isAlike h _

omit [Scalar α] in
/-- Commits do not. -/
theorem isBlind_commit : IsBlind fun t : Transformation ν α => t.commit := by
  refine isBlind_of_bound (fun t e h => ?_) (fun t nodes h => commit_of_bound h) ?_
  · simp only [commit, h]
  · rintro nodes t _ ⟨previous, rfl⟩
    exact ⟨⟨previous, rfl⟩, rfl, rfl⟩

/-- **Reverts** do not. -/
theorem isBlind_revert (tol : Tolerances α) (trial : ν → Displacement α) :
    IsBlind fun t => t.revert tol trial := by
  refine isBlind_of_bound (fun t e h => ?_) (fun t nodes h => revert_of_bound h trial) ?_
  · simp only [revert, h]
  · rintro nodes t _ ⟨previous, rfl⟩
    exact isBlind_update tol trial _ _ ⟨previous, rfl⟩

end Transformation

open Transformation (IsBlind IsEvaluation)

variable {α : Type} [Scalar α] {n : Nat} {tol : Tolerances α}

namespace Member

variable {m m' : Member n α} {trial : Fin n → Displacement α}

/-- The second member is the first one, but perhaps for the deformations before the latest
update. -/
def IsAlike (m m' : Member n α) : Prop :=
  ∃ t, Transformation.IsAlike m.transformation t ∧ m' = { m with transformation := t }

omit [Scalar α] in
theorem IsAlike.within {f : Transformation (Fin n) α → Outcome α (Transformation (Fin n) α) Unit}
    (hf : IsBlind f) (h : IsAlike m m') :
    Outcome.IsAlike IsAlike (m.within f) (m'.within f) := by
  obtain ⟨t, ht, rfl⟩ := h
  obtain ⟨hstate, hnotices, hresult⟩ := hf _ _ ht
  exact ⟨⟨_, hstate, rfl⟩, hnotices, hresult⟩

omit [Scalar α] in
/-- A member is bound to the same nodes, and contributes the same. -/
theorem IsAlike.components_eq (h : IsAlike m m') : m'.components = m.components := by
  obtain ⟨_, -, rfl⟩ := h
  rfl

theorem IsAlike.localForce_eq (h : IsAlike m m') : m'.localForce = m.localForce := by
  obtain ⟨_, ⟨previous, rfl⟩, rfl⟩ := h
  rfl

theorem IsAlike.contribution_eq (tol : Tolerances α) (h : IsAlike m m') :
    m'.contribution tol = m.contribution tol := by
  obtain ⟨_, ⟨previous, rfl⟩, rfl⟩ := h
  rfl

end Member

namespace Structure

variable {s s' c t : Structure n α}

/-! ## Requests -/

/-- What is asked of a structure. -/
inductive Request (n : Nat) (α : Type) where
  /-- An operation is to be done. -/
  | operate (op : Operation n α)
  /-- The tangent and the resisting forces are asked for. -/
  | response
  /-- The local forces of the members are asked for. -/
  | localForces

/-- What it answers. -/
inductive Answer (n : Nat) (α : Type) where
  /-- The operation was done. -/
  | done
  /-- The tangent and the resisting forces. -/
  | response (R : Response (6 * n) α)
  /-- The local forces of the members. -/
  | localForces (forces : List (ElementVector α))

/-- The structure after a request, with the answer. -/
def Request.perform (tol : Tolerances α) (s : Structure n α) :
    Request n α → Outcome α (Structure n α) (Answer n α)
  | operate op => (op.perform tol s).andThen fun s _ => .ok s .done
  | response => (s.response tol).andThen fun s R => .ok s (.response R)
  | localForces => .ok s (.localForces s.localForces)

/-- The structure after a sequence of requests, some of which may be refused. -/
def asked (tol : Tolerances α) (s : Structure n α) (requests : List (Request n α)) :
    Structure n α := requests.foldl (fun s r => (r.perform tol s).state) s

/-- The answers to a sequence of requests in turn, refusals among them, with the remarks
made. -/
def answers (tol : Tolerances α) :
    Structure n α → List (Request n α) →
      List (List (Notice α) × Except (Failure α) (Answer n α))
  | _, [] => []
  | s, r :: requests =>
    let o := r.perform tol s
    (o.notices, o.result) :: answers tol o.state requests

/-- The second structure is the first one, but perhaps for what its members remember from
before their latest update. -/
structure IsAlike (s s' : Structure n α) : Prop where
  nodes : s'.nodes = s.nodes
  members : List.Forall₂ Member.IsAlike s.members s'.members

omit [Scalar α] in
theorem IsAlike.onTransformations
    {f : Transformation (Fin n) α → Outcome α (Transformation (Fin n) α) Unit} (hf : IsBlind f)
    (h : IsAlike s s') :
    Outcome.IsAlike IsAlike (s.onTransformations f) (s'.onTransformations f) := by
  have hloop := Outcome.forEach_isAlike (fun m m' hm => Member.IsAlike.within hf hm) h.members
  exact ⟨⟨h.nodes, hloop.state⟩, hloop.notices, hloop.result⟩

/-- **Every operation** does the same to both. -/
theorem IsAlike.perform (h : IsAlike s s') (op : Operation n α) :
    Outcome.IsAlike IsAlike (op.perform tol s) (op.perform tol s') := by
  obtain ⟨nodes, members⟩ := s
  obtain ⟨nodes', members'⟩ := s'
  obtain rfl : nodes' = nodes := h.nodes
  -- with the nodes the trial displacements are the same, which the transformations follow
  cases op with
  | setTrial d =>
    exact IsAlike.onTransformations (Transformation.isBlind_update tol _) ⟨rfl, h.members⟩
  | commit => exact IsAlike.onTransformations Transformation.isBlind_commit ⟨rfl, h.members⟩
  | revert =>
    exact IsAlike.onTransformations (Transformation.isBlind_revert tol _) ⟨rfl, h.members⟩

theorem localForces_of_isAlike {members members' : List (Member n α)}
    (h : List.Forall₂ Member.IsAlike members members') :
    members'.map Member.localForce = members.map Member.localForce := by
  induction h with
  | nil => rfl
  | cons hm _ ih => rw [List.map_cons, List.map_cons, hm.localForce_eq, ih]

/-- Members that contribute the same to the same components are assembled alike. -/
theorem contributions_congr {members members' : List (Member n α)}
    (h : List.Forall₂ (fun m m' => m'.contribution tol = m.contribution tol
      ∧ m'.components = m.components) members members') :
    contributions tol members' = contributions tol members := by
  induction h with
  | nil => rfl
  | cons hm _ ih => rw [contributions, contributions, hm.1, hm.2, ih]

theorem IsAlike.response (tol : Tolerances α) (h : IsAlike s s') :
    Outcome.IsAlike IsAlike (s.response tol) (s'.response tol) := by
  have hcontributions := contributions_congr (h.members.imp fun m m' hm =>
    ⟨hm.contribution_eq tol, hm.components_eq⟩)
  unfold Structure.response
  rw [hcontributions]
  exact ⟨h, rfl, rfl⟩

/-- **Every request** is answered alike. -/
theorem IsAlike.request (tol : Tolerances α) (h : IsAlike s s') (r : Request n α) :
    Outcome.IsAlike IsAlike (r.perform tol s) (r.perform tol s') := by
  have hok (answer : Answer n α) {s s' : Structure n α} (h : IsAlike s s') :
      Outcome.IsAlike IsAlike (.ok s answer : Outcome α (Structure n α) _) (.ok s' answer) :=
    ⟨h, rfl, rfl⟩
  cases r with
  | operate op => exact (h.perform op).andThen fun s s' _ h => hok .done h
  | response => exact (h.response tol).andThen fun s s' R h => hok (.response R) h
  | localForces =>
    have hforces : s'.localForces = s.localForces := localForces_of_isAlike h.members
    simp only [Request.perform, hforces]
    exact hok _ h

/-- **Every sequence of requests** is answered alike. -/
theorem IsAlike.answers_eq (tol : Tolerances α) (h : IsAlike s s') (requests : List (Request n α)) :
    answers tol s' requests = answers tol s requests := by
  induction requests generalizing s s' with
  | nil => rfl
  | cons r requests ih =>
    obtain ⟨hstate, hnotices, hresult⟩ := h.request tol r
    simp only [answers, hnotices, hresult, ih hstate]

/-! ## Attempts -/

/-- What attempts leave of a committed structure: its nodes with other trial
displacements, and its members with their commits. -/
structure IsAttempt (c t : Structure n α) : Prop where
  nodes : t.nodes.map Node.revert = c.nodes
  members : List.Forall₂ (fun m m' => m'.beam = m.beam ∧ m'.stiffness = m.stiffness
    ∧ m.transformation.Keeps m'.transformation) c.members t.members

/-- The structure with its present state committed. -/
def snapshot (s : Structure n α) : Structure n α :=
  ⟨s.nodes.map Node.commit, s.members.map Member.snapshot⟩

omit [Scalar α] in
theorem isAttempt_snapshot (s : Structure n α) : IsAttempt s.snapshot s.snapshot where
  nodes := Vector.map_map
  members := List.forall₂_same.mpr fun _ _ => ⟨rfl, rfl, .refl _⟩

omit [Scalar α] in
theorem IsAttempt.onTransformations
    {f : Transformation (Fin n) α → Outcome α (Transformation (Fin n) α) Unit}
    (hf : ∀ u, Transformation.Keeps u (f u).state) (h : IsAttempt c t) :
    IsAttempt c (t.onTransformations f).state where
  nodes := h.nodes
  members := by
    refine Outcome.forEach_related ?_ h.members
    rintro m m' ⟨hbeam, hstiffness, hkeeps⟩
    exact ⟨hbeam, hstiffness, hkeeps.trans (hf _)⟩

/-- **An operation on an attempt** leaves an attempt, unless it commits. -/
theorem IsAttempt.perform (tol : Tolerances α) (h : IsAttempt c t) {op : Operation n α}
    (hop : op ≠ .commit) : IsAttempt c (op.perform tol t).state := by
  cases op with
  | commit => exact absurd rfl hop
  | setTrial d =>
    refine IsAttempt.onTransformations (fun u => u.update_keeps tol _) ⟨?_, h.members⟩
    rw [← h.nodes]
    refine Vector.ext fun k hk => ?_
    rw [Vector.getElem_map, Vector.getElem_ofFn, Vector.getElem_map]
    rfl
  | revert =>
    refine IsAttempt.onTransformations (fun u => u.revert_keeps tol _) ⟨?_, h.members⟩
    rw [← h.nodes]
    exact Vector.map_map

/-- Other requests leave an attempt as well. -/
theorem IsAttempt.request (tol : Tolerances α) (h : IsAttempt c t) {r : Request n α}
    (hr : r ≠ .operate .commit) : IsAttempt c (r.perform tol t).state := by
  cases r with
  | operate op =>
    rw [Request.perform, Outcome.andThen_ok_state]
    exact h.perform tol fun hop => hr (congrArg Request.operate hop)
  | response =>
    rw [Request.perform, Outcome.andThen_ok_state]
    exact h
  | localForces => exact h

/-- **Any sequence of requests** without a commit does. -/
theorem IsAttempt.asked (tol : Tolerances α) (h : IsAttempt c t) {requests : List (Request n α)}
    (hrequests : ∀ r ∈ requests, r ≠ .operate .commit) : IsAttempt c (asked tol t requests) := by
  induction requests generalizing t with
  | nil => exact h
  | cons r requests ih =>
    obtain ⟨hr, hrest⟩ := List.forall_mem_cons.mp hrequests
    exact ih (h.request tol hr) hrest

end Structure

namespace Member

variable {m m' : Member n α} {trial : Fin n → Displacement α}

/-- The rotational parts that the nodes of a member report cancel: a finite one does. -/
def Cancels (trial : Fin n → Displacement α) (m : Member n α) : Prop :=
  let d := m.transformation.displacement (m.beam.ends.map trial)
  d.i.rot.Cancels ∧ d.j.rot.Cancels

/-- **A member finds what it has committed**, once its nodes report again what they did. -/
theorem IsUpToDate.revert (h : m.IsUpToDate tol trial) (hcancel : m.Cancels trial)
    (hbeam : m'.beam = m.beam) (hstiffness : m'.stiffness = m.stiffness)
    (hkeeps : m.snapshot.transformation.Keeps m'.transformation) :
    (m'.within fun t => t.revert tol trial).result = .ok ()
      ∧ m.snapshot.IsAlike (m'.within fun t => t.revert tol trial).state := by
  have hrevert := Transformation.revert_eq h.evaluation h.bound hkeeps rfl rfl rfl hcancel
  simp only [within, hrevert]
  -- what was seen last is what was seen before the commit, so nothing else differs
  refine ⟨rfl, _, ⟨m.transformation.deformation, rfl⟩, Member.ext hbeam ?_ hstiffness⟩
  rw [← h.evaluation.seen]
  rfl

end Member

namespace Structure

variable {s t : Structure n α}

/-- A commit changes nothing that a response reads. -/
theorem response_snapshot (tol : Tolerances α) (s : Structure n α) :
    (s.snapshot.response tol).notices = (s.response tol).notices
      ∧ (s.snapshot.response tol).result = (s.response tol).result := by
  have hcontributions : contributions tol s.snapshot.members = contributions tol s.members :=
    contributions_congr (List.forall₂_map_right_iff.mpr
      (List.forall₂_same.mpr fun _ _ => ⟨rfl, rfl⟩))
  rw [response, response, hcontributions]
  exact ⟨rfl, rfl⟩

/-- **A revert of an attempt** succeeds, and leaves the committed structure as it was. -/
theorem IsAttempt.revert (h : IsAttempt s.snapshot t)
    (hmembers : ∀ m ∈ s.members, m.IsUpToDate tol s.trial ∧ m.Cancels s.trial) :
    (t.revert tol).result = .ok () ∧ IsAlike s.snapshot (t.revert tol).state := by
  have hrevert : t.revert tol
      = (⟨s.snapshot.nodes, t.members⟩ : Structure n α).onTransformations
        fun u => u.revert tol s.trial := by
    -- the nodes go back first, so the members are reverted at what was committed
    have htrial : trial ⟨s.snapshot.nodes, t.members⟩ = s.trial := trial_map_commit s.nodes _
    rw [Structure.revert, h.nodes, htrial]
  have hkept := List.forall₂_map_left_iff.mp h.members
  obtain ⟨hresult, hstate⟩ := Outcome.forEach_of_related
    (f := Member.within fun u => u.revert tol s.trial)
    (q := fun m m' => m.snapshot.IsAlike m')
    (by
      rintro m m' ⟨⟨hm, hcancel⟩, hbeam, hstiffness, hkeeps⟩
      exact hm.revert hcancel hbeam hstiffness hkeeps)
    ((List.forall₂_and_left _ _).mpr ⟨hmembers, hkept⟩)
  rw [hrevert]
  exact ⟨hresult, rfl, List.forall₂_map_left_iff.mpr hstate⟩

/-- The outcome of a revert restores what the structure was at its commit. The nodes have the
displacements of then, for the trial ones and for the committed ones, and the local forces, the
response and the answers to every further sequence of requests are those of then. -/
structure IsRestored (tol : Tolerances α) (s : Structure n α)
    (o : Outcome α (Structure n α) Unit) : Prop where
  result : o.result = .ok ()
  nodes : ∀ k, o.state.trial k = s.trial k ∧ (o.state.nodes.get k).committed = s.trial k
  localForces : o.state.localForces = s.localForces
  response : ∃ R, (s.response tol).result = .ok R ∧ (o.state.response tol).result = .ok R
  notices : (o.state.response tol).notices = (s.response tol).notices
  answers : ∀ requests,
    answers tol o.state requests = Structure.answers tol s.commit.state requests

/-- **An up-to-date structure is restored** to its commit after any requests without another
one. -/
theorem IsJudged.isRestored (hjudged : s.IsJudged tol true)
    (hcancel : ∀ m ∈ s.members, m.Cancels s.trial) {attempts : List (Request n α)}
    (hattempts : ∀ r ∈ attempts, r ≠ .operate .commit) :
    s.commit.result = .ok ()
      ∧ s.IsRestored tol ((asked tol s.commit.state attempts).revert tol) := by
  obtain ⟨hcommit, hc⟩ := commit_eq hjudged.bound
  change s.commit.state = s.snapshot at hc
  set o := (asked tol s.commit.state attempts).revert tol
  obtain ⟨hrevert, halike⟩ : o.result = .ok () ∧ IsAlike s.snapshot o.state := by
    refine IsAttempt.revert (s := s) ?_ fun m hm => ⟨hjudged.upToDate rfl m hm, hcancel m hm⟩
    rw [hc]
    exact (isAttempt_snapshot s).asked tol hattempts
  have hnode (k : Fin n) : o.state.nodes.get k = (s.nodes.get k).commit := by
    rw [halike.nodes]
    exact Vector.getElem_map ..
  obtain ⟨-, hnotices, hresult⟩ := halike.response tol
  obtain ⟨hnotices', hresult'⟩ := response_snapshot tol s
  obtain ⟨R, hR⟩ := hjudged.response_ok
  refine ⟨hcommit, hrevert, fun k => ?_, ?_, ⟨R, hR, ?_⟩, hnotices.trans hnotices',
    fun requests => ?_⟩
  · rw [trial, hnode]
    exact ⟨rfl, rfl⟩
  · have hforces : o.state.localForces = s.snapshot.localForces :=
      localForces_of_isAlike halike.members
    exact hforces.trans List.map_map
  · rw [hresult, hresult', hR]
  · rw [hc]
    exact halike.answers_eq tol requests

/-- A structure is up to date where the latest of its construction, trial displacements and
reverts succeeded. -/
theorem isJudged_after {nodes : Vector (Node α) n} {beams : List (Except (Failure α) (Beam n α))}
    (hbuild : (build tol nodes beams).result = .ok ()) {history : List (Operation n α)}
    (hlatest : verdict tol (build tol nodes beams).state true history = true) :
    (after tol (build tol nodes beams).state history).IsJudged tol true :=
  hlatest ▸ after_isJudged history (build_isJudged hbuild)

/-- **Over the real numbers every structure is restored** to a commit that was made when the
latest of its construction, trial displacements and reverts had succeeded. Nothing is asked of the
displacements of its nodes. -/
theorem isRestored_after [SeriesAngle] {tol : Tolerances ℝ} (nodes : Vector (Node ℝ) n)
    (beams : List (Except (Failure ℝ) (Beam n ℝ)))
    (hbuild : (build tol nodes beams).result = .ok ()) (history : List (Operation n ℝ))
    (hlatest : verdict tol (build tol nodes beams).state true history = true)
    (attempts : List (Request n ℝ)) (hattempts : ∀ r ∈ attempts, r ≠ .operate .commit) :
    let s := after tol (build tol nodes beams).state history
    s.commit.result = .ok ()
      ∧ s.IsRestored tol ((asked tol s.commit.state attempts).revert tol) :=
  (isJudged_after hbuild hlatest).isRestored
    (fun _ _ => ⟨Vec3.cancels_real _, Vec3.cancels_real _⟩) hattempts

/-- **A revert restores the commit.** Let a structure be committed when the latest of its
construction, trial displacements and reverts succeeded, whatever was done before. After
any sequence of requests without a commit, of which trial displacements and reverts may
fail at any member, the revert succeeds. The trial displacements of every node are then the
committed ones, and those that it had at the commit. The local forces and the response are
exactly what they were, and every further sequence of requests is answered exactly as
directly after the commit, its refusals and remarks included.

This holds over any scalars, in double precision as well, for rotational parts that are
finite. Over the real numbers they all cancel (`isRestored_after`). -/
theorem revert_restores_response (nodes : Vector (Node α) n)
    (beams : List (Except (Failure α) (Beam n α)))
    (hbuild : (build tol nodes beams).result = .ok ()) (history : List (Operation n α))
    (hlatest : verdict tol (build tol nodes beams).state true history = true)
    (hcancel : ∀ m ∈ (after tol (build tol nodes beams).state history).members,
      m.Cancels (after tol (build tol nodes beams).state history).trial)
    (attempts : List (Request n α)) (hattempts : ∀ r ∈ attempts, r ≠ .operate .commit) :
    let s := after tol (build tol nodes beams).state history
    let c := s.commit.state
    let o := (asked tol c attempts).revert tol
    s.commit.result = .ok () ∧ o.result = .ok ()
      ∧ (∀ k, o.state.trial k = s.trial k ∧ (o.state.nodes.get k).committed = s.trial k)
      ∧ o.state.localForces = s.localForces
      ∧ (∃ R, (s.response tol).result = .ok R ∧ (o.state.response tol).result = .ok R)
      ∧ (o.state.response tol).notices = (s.response tol).notices
      ∧ ∀ requests, answers tol o.state requests = answers tol c requests := by
  intro s c o
  obtain ⟨hcommit, h⟩ := (isJudged_after hbuild hlatest).isRestored hcancel hattempts
  exact ⟨hcommit, h.result, h.nodes, h.localForces, h.response, h.notices, h.answers⟩

/-! ### Twisted beams -/

/-- Two beams whose twist is committed, and that are moved onto one node twice. -/
theorem revert_restores_response_twisted :
    letI : SeriesAngle := .exact
    let thick : Section ℝ := ⟨1, 1, 1, 1, 1, 1⟩
    let thin : Section ℝ := ⟨1, 1, 1 / 2, 1 / 4, 1 / 4, 1 / 2⟩
    let built := (build .standard pairNodes
      [.ok (straightBeam thick), .ok (straightBeam thin)]).state
    let s := after .standard built [.setTrial pairTwist]
    let c := s.commit.state
    let attempts : List (Request 2 ℝ) := [.operate (.setTrial pairCollapse), .response,
      .operate .revert, .operate (.setTrial pairCollapse), .localForces]
    let o := (asked .standard c attempts).revert .standard
    o.result = .ok () ∧ (∀ k, o.state.trial k = s.trial k) ∧ o.state.localForces = s.localForces
      ∧ (∃ R, (s.response .standard).result = .ok R ∧ (o.state.response .standard).result = .ok R)
      ∧ answers .standard o.state attempts = answers .standard c attempts := by
  let _ : SeriesAngle := .exact
  intro thick thin built s c attempts o
  have h0 := Tolerances.standard_admissible_exact.parallel_nonneg
  obtain ⟨hbuild, hlatest⟩ :=
    verdict_twisted le_rfl one_pos h0 Tolerances.standard_parallel_lt_cos [thick, thin]
  have hattempts : ∀ r ∈ attempts, r ≠ .operate .commit := by simp [attempts]
  obtain ⟨-, hrevert, hnodes, hforces, hresponse, -, hanswers⟩ :=
    revert_restores_response pairNodes _ hbuild [.setTrial pairTwist] hlatest
      (fun _ _ => ⟨Vec3.cancels_real _, Vec3.cancels_real _⟩) attempts hattempts
  exact ⟨hrevert, fun k => (hnodes k).1, hforces, hresponse, hanswers attempts⟩

end Structure

end Corotation
