import Corotation.Proofs.Structure.Exchange
import Corotation.Proofs.Transformation.Currency
import Corotation.Proofs.Transformation.Restoration
/-!
# Which responses are assembled

A structure visits its members in order and stops at the first that fails. The members
before that one are then at the new displacements, and those after it at the old ones,
each of them in the stage `current`. What keeps them from being assembled is the one that
failed: it waits in the stage `initialized` until an operation brings it up to date, and
no operation does so that fails (`Transformation.IsFollowing`).

So a structure is in one of two conditions (`IsJudged`), and the outcome of the latest
evaluation says in which: all of its members are up to date, or one of them waits. The
first holds after construction, and every operation leads to one of the two
(`perform_isJudged`). In the one the response is answered, and in the other it is refused
(`response_follows_nodes`).

No law of arithmetic is used.
-/

namespace Corotation

/-! ## Operations on all of a list -/

/-- What is related to the members of a list in turn is related to one of them. -/
theorem exists_of_forall₂_right {β γ : Type} {r : β → γ → Prop} {xs : List β} {ys : List γ}
    (h : List.Forall₂ r xs ys) {y : γ} (hy : y ∈ ys) : ∃ x ∈ xs, r x y := by
  induction h with
  | nil => cases hy
  | cons hxy _ ih =>
    rcases List.mem_cons.mp hy with rfl | hy
    · exact ⟨_, List.mem_cons_self, hxy⟩
    · obtain ⟨x, hx, hxy⟩ := ih hy
      exact ⟨x, List.mem_cons_of_mem _ hx, hxy⟩

namespace Outcome

variable {α σ : Type} {f : σ → Outcome α σ Unit}

/-- **What an operation keeps of each of a list** it keeps of all, wherever it stops. -/
theorem forEach_related {ρ : Type} {r : ρ → σ → Prop} (hf : ∀ c x, r c x → r c (f x).state)
    {cs : List ρ} {xs : List σ} (h : List.Forall₂ r cs xs) :
    List.Forall₂ r cs (forEach f xs).state := by
  induction h with
  | nil => exact .nil
  | @cons c x cs xs hx hxs ih =>
    unfold forEach
    cases h : (f x).result with
    | error e =>
      -- the rest is not reached, and is related as before
      simp only [h]
      exact .cons (hf c x hx) hxs
    | ok u =>
      simp only [h]
      exact .cons (hf c x hx) ih

/-- What an operation keeps of each holds of all of them still. -/
theorem forall_forEach {p : σ → Prop} (hf : ∀ x, p x → p (f x).state) {xs : List σ}
    (h : ∀ x ∈ xs, p x) : ∀ x ∈ (forEach f xs).state, p x := by
  intro x' hx'
  have hkept := forEach_related (r := fun _ x => p x) (fun _ => hf) (List.forall₂_same.mpr h)
  obtain ⟨x, -, hx⟩ := exists_of_forall₂_right hkept hx'
  exact hx

/-- **What fails on a list** fails on one of it, and leaves what it left of that. -/
theorem exists_of_forEach_error {xs : List σ} {e : Failure α}
    (h : (forEach f xs).result = .error e) :
    ∃ x ∈ xs, (f x).result = .error e ∧ (f x).state ∈ (forEach f xs).state := by
  induction xs with
  | nil => cases h
  | cons x xs ih =>
    unfold forEach at h ⊢
    cases hx : (f x).result with
    | error e' =>
      simp only [hx] at h ⊢
      cases h
      exact ⟨x, List.mem_cons_self, hx, List.mem_cons_self⟩
    | ok u =>
      simp only [hx] at h ⊢
      obtain ⟨y, hy, hresult, hstate⟩ := ih h
      exact ⟨y, List.mem_cons_of_mem x hy, hresult, List.mem_cons_of_mem _ hstate⟩

end Outcome

namespace Transformation

variable {ν α : Type} [Scalar α] {tol : Tolerances α} {t : Transformation ν α} {nodes : Ends ν}
variable {trial : ν → Displacement α} {d : Ends (Displacement α)}

/-! ## Operations that follow the nodes -/

/-- An operation that succeeds as an update at what the nodes report, and that fails in the
stage `initialized`. -/
structure IsFollowing (tol : Tolerances α) (trial : ν → Displacement α)
    (f : Transformation ν α → Outcome α (Transformation ν α) Unit) : Prop where
  bound {t : Transformation ν α} {nodes : Ends ν} (hbound : t.bound? = .ok nodes) :
    (f t).state.bound? = .ok nodes
  followed {t : Transformation ν α} {nodes : Ends ν} (hbound : t.bound? = .ok nodes)
    (hok : (f t).result = .ok ()) :
    ∃ u : Transformation ν α, u.bound? = .ok nodes ∧ u.update tol trial = .ok (f t).state ()
  refused {t : Transformation ν α} {nodes : Ends ν} (hbound : t.bound? = .ok nodes)
    (hfail : (f t).result ≠ .ok ()) : (f t).state.stage = .initialized

theorem isFollowing_update (tol : Tolerances α) (trial : ν → Displacement α) :
    IsFollowing tol trial fun t => t.update tol trial where
  bound hbound := (update_keeps tol trial _).bound? hbound
  followed {t nodes} hbound hok := by
    refine ⟨t, hbound, ?_⟩
    rcases update_outcome tol hbound trial with ⟨_, _, -, heq⟩ | ⟨_, _, _, _, heq⟩
    · rw [heq]
      rfl
    · rw [heq] at hok
      cases hok
  refused {t nodes} hbound hfail := by
    rcases update_outcome tol hbound trial with ⟨_, _, -, heq⟩ | ⟨_, _, _, _, heq⟩
    · exact absurd (congrArg Outcome.result heq) hfail
    · rw [heq]
      rfl

theorem isFollowing_revert (tol : Tolerances α) (trial : ν → Displacement α) :
    IsFollowing tol trial fun t => t.revert tol trial where
  bound hbound := (revert_keeps tol trial _).bound? hbound
  followed {t nodes} hbound hok := by
    have hrestored : (t.restore (nodes.map trial)).bound? = .ok nodes := hbound
    rw [revert_of_bound hbound] at hok ⊢
    exact (isFollowing_update tol trial).followed hrestored hok
  refused {t nodes} hbound hfail := by
    have hrestored : (t.restore (nodes.map trial)).bound? = .ok nodes := hbound
    rw [revert_of_bound hbound] at hfail ⊢
    exact (isFollowing_update tol trial).refused hrestored hfail

/-- An evaluated state has a tangent. -/
theorem IsEvaluation.exists_tangent (h : IsEvaluation tol t d) : ∃ T, t.tangent? = .ok T := by
  obtain ⟨_, _, -, -, -, heq⟩ := evaluate_eq_ok_iff.mp h.evaluate
  obtain ⟨T, hT⟩ : ∃ T, t.tangent = some T := ⟨_, congrArg Transformation.tangent heq⟩
  refine ⟨T, ?_⟩
  unfold tangent?
  rw [h.stage, hT]

omit [Scalar α] in
/-- Past its initialization a transformation without a tangent is outdated. -/
theorem outdated_of_tangent (hstage : t.stage ≠ .uninitialized) {e : Failure α}
    (h : t.tangent? = .error e) : e = .outdated t.tag := by
  have hout : t.outOfStage = .outdated t.tag := if_neg hstage
  unfold tangent? at h
  split at h
  · cases h
  · rw [← hout]
    exact (Except.error.inj h).symm

/-- An accepted attachment binds the nodes that it was given. -/
theorem attach_bound {i j : ν} {ni nj : Node α}
    (h : (t.attach tol [some (i, ni), some (j, nj)]).result = .ok ()) :
    (t.attach tol [some (i, ni), some (j, nj)]).state.bound? = .ok ⟨i, j⟩ := by
  have hsettle (t : Transformation ν α) : (t.settle tol).state.nodes = t.nodes := by
    unfold settle
    split
    · rfl
    · simp only
      split <;> rfl
  refine bound?_eq_ok_iff.mpr ⟨by rw [(attach_ok h).1]; exact Stage.noConfusion, ?_⟩
  unfold attach at h ⊢
  cases href : referenceOf tol t.config ⟨ni.position, nj.position⟩ with
  | error e =>
    simp only [href] at h
    cases h
  | ok r =>
    simp only [href]
    exact hsettle _

end Transformation

open Transformation (IsFollowing IsEvaluation)

variable {α : Type} [Scalar α] {n : Nat} {tol : Tolerances α}

/-! ## Members -/

namespace Member

variable {m : Member n α} {trial : Fin n → Displacement α}

/-- **The kinematics of a member is that of its nodes**: an update has succeeded at the
trial displacements that they hold, with nothing but commits since, and all that is cached
is what an evaluation finds there. -/
structure IsUpToDate (tol : Tolerances α) (trial : Fin n → Displacement α) (m : Member n α) :
    Prop where
  nodes : m.transformation.nodes = some m.beam.ends
  followed : ∃ t u, Transformation.update tol trial t = .ok u ()
    ∧ (m.transformation = u ∨ m.transformation = u.snapshot)
  evaluation : IsEvaluation tol m.transformation
    (m.transformation.displacement (m.beam.ends.map trial))

/-- A member is up to date after an update. -/
theorem isUpToDate_of_update {t : Transformation (Fin n) α} (hbound : t.bound? = .ok m.beam.ends)
    (h : t.update tol trial = .ok m.transformation ()) : m.IsUpToDate tol trial := by
  have hstate : (t.update tol trial).state = m.transformation := congrArg Outcome.state h
  have hcurrent : (t.update tol trial).state.stage = .current := by
    rcases Transformation.update_outcome tol hbound trial with
      ⟨_, u, heval, heq⟩ | ⟨_, _, _, _, heq⟩
    · rw [heq]
      exact (Transformation.isEvaluation_of_evaluate rfl heval).stage
    · cases (congrArg Outcome.result heq).symm.trans (congrArg Outcome.result h)
  have heval := Transformation.update_isEvaluation hbound trial hcurrent
  have hnodes := (Transformation.update_keeps tol trial t).nodes
  rw [hstate] at heval hnodes
  exact ⟨hnodes.trans (Transformation.bound?_eq_ok_iff.mp hbound).2, ⟨t, _, h, .inl rfl⟩, heval⟩

/-- A member with its transformation committed. -/
def snapshot (m : Member n α) : Member n α :=
  { m with transformation := m.transformation.snapshot }

/-- It stays so in a commit. -/
theorem IsUpToDate.snapshot (h : m.IsUpToDate tol trial) :
    m.snapshot.IsUpToDate tol trial where
  nodes := h.nodes
  followed := by
    obtain ⟨t, u, hupdate, hm | hm⟩ := h.followed
    · exact ⟨t, u, hupdate, .inr (congrArg Transformation.snapshot hm)⟩
    · have hagain : u.snapshot.snapshot = u.snapshot := rfl
      exact ⟨t, u, hupdate, .inr ((congrArg Transformation.snapshot hm).trans hagain)⟩
  evaluation := h.evaluation.snapshot

/-- A member that is built is up to date. -/
theorem build_isUpToDate {nodes : Vector (Node α) n} {beam : Beam n α}
    (h : (build tol nodes beam).result = .ok ()) :
    (build tol nodes beam).state.IsUpToDate tol fun k => (nodes.get k).trial := by
  have hsteps : (((Transformation.ofConfiguration ⟨beam.id, beam.vecxz, none, .none⟩).attach tol
      [some (beam.ends.i, nodes.get beam.ends.i),
        some (beam.ends.j, nodes.get beam.ends.j)]).andThen
          fun t _ => t.update tol fun k => (nodes.get k).trial).result = .ok () := h
  obtain ⟨_, hattach, hupdate⟩ := Outcome.andThen_eq_ok_iff.mp hsteps
  obtain ⟨u, hu, heq⟩ := (Transformation.isFollowing_update tol _).followed
    (Transformation.attach_bound hattach) hupdate
  refine isUpToDate_of_update hu (heq.trans (congrArg (Outcome.ok · ()) ?_))
  exact (Outcome.andThen_state hattach fun t _ => t.update tol fun k => (nodes.get k).trial).symm

/-- A member that is up to date is bound to the ends of its beam. -/
theorem IsUpToDate.bound (h : m.IsUpToDate tol trial) :
    m.transformation.bound? = .ok m.beam.ends :=
  Transformation.bound?_eq_ok_iff.mpr ⟨by rw [h.evaluation.stage]; exact Stage.noConfusion, h.nodes⟩

end Member

namespace Structure

variable {s : Structure n α} {latest : Bool}

/-! ## Runs -/

/-- The structure after a sequence of operations, some of which may fail. -/
def after (tol : Tolerances α) (s : Structure n α) (operations : List (Operation n α)) :
    Structure n α := operations.foldl (fun s op => (op.perform tol s).state) s

/-- What is noted of an operation: whether it succeeded. A commit evaluates nothing, so
nothing is noted. -/
def Operation.note (tol : Tolerances α) (s : Structure n α) (latest : Bool) :
    Operation n α → Bool
  | .commit => latest
  | .setTrial d => (s.setTrial tol d).result.isOk
  | .revert => (s.revert tol).result.isOk

/-- Whether the latest evaluation succeeded in a run from a structure, with the outcome of
the one before the run. -/
def verdict (tol : Tolerances α) : Structure n α → Bool → List (Operation n α) → Bool
  | _, latest, [] => latest
  | s, latest, op :: operations =>
    verdict tol (op.perform tol s).state (op.note tol s latest) operations

/-! ## What an operation preserves -/

/-- The outcome of the latest evaluation tells the two conditions of a structure apart: all
members are up to date, or one of them waits. -/
structure IsJudged (tol : Tolerances α) (s : Structure n α) (latest : Bool) : Prop where
  bound : ∀ m ∈ s.members, m.transformation.bound? = .ok m.beam.ends
  upToDate : latest = true → ∀ m ∈ s.members, m.IsUpToDate tol s.trial
  waiting : latest = false → ∃ m ∈ s.members, m.transformation.stage = .initialized

/-- What holds of every member that is built holds of those of a structure that is. -/
theorem forall_of_build {nodes : Vector (Node α) n} {beams : List (Except (Failure α) (Beam n α))}
    {p : Member n α → Prop} (hp : ∀ beam, (Member.build tol nodes beam).result = .ok () →
      p (Member.build tol nodes beam).state)
    (h : (build tol nodes beams).result = .ok ()) :
    ∀ m ∈ (build tol nodes beams).state.members, p m := by
  change (buildMembers tol nodes beams).result = .ok () at h
  change ∀ m ∈ (buildMembers tol nodes beams).state, p m
  induction beams with
  | nil => exact List.forall_mem_nil p
  | cons first beams ih =>
    cases first with
    | error e => cases h
    | ok beam =>
      unfold buildMembers at h ⊢
      cases hbeam : (Member.build tol nodes beam).result with
      | error e =>
        simp only [hbeam] at h
        cases h
      | ok u =>
        simp only [hbeam] at h ⊢
        exact List.forall_mem_cons.mpr ⟨hp beam hbeam, ih h⟩

/-- The members of a structure that is built are up to date. -/
theorem build_isJudged {nodes : Vector (Node α) n} {beams : List (Except (Failure α) (Beam n α))}
    (h : (build tol nodes beams).result = .ok ()) :
    (build tol nodes beams).state.IsJudged tol true := by
  have hmembers := forall_of_build (fun _ => Member.build_isUpToDate) h
  exact ⟨fun m hm => (hmembers m hm).bound, fun _ => hmembers, Bool.noConfusion⟩

/-- **An operation that follows the nodes** is judged by its result, on whichever member it
fails. -/
theorem onTransformations_isJudged
    {f : Transformation (Fin n) α → Outcome α (Transformation (Fin n) α) Unit}
    (hf : IsFollowing tol s.trial f)
    (hbound : ∀ m ∈ s.members, m.transformation.bound? = .ok m.beam.ends) :
    (s.onTransformations f).state.IsJudged tol (s.onTransformations f).result.isOk := by
  refine ⟨Outcome.forall_forEach (f := Member.within f) (fun m hm => hf.bound hm) hbound,
    fun hok m' hm' => ?_, fun hfail => ?_⟩
  · have hresult : (s.onTransformations f).result = .ok () := by
      cases h : (s.onTransformations f).result with
      | ok u => rfl
      | error e =>
        rw [h] at hok
        cases hok
    have hall := onTransformations_eq_ok_iff.mp hresult
    rw [onTransformations_state hall] at hm'
    obtain ⟨m, hm, rfl⟩ := List.mem_map.mp hm'
    obtain ⟨t, ht, hupdate⟩ := hf.followed (hbound m hm) (hall m hm)
    rw [onTransformations_state hall]
    exact Member.isUpToDate_of_update ht hupdate
  · cases h : (s.onTransformations f).result with
    | ok u =>
      rw [h] at hfail
      cases hfail
    | error e =>
      obtain ⟨m, hm, hresult, hstate⟩ := Outcome.exists_of_forEach_error h
      refine ⟨_, hstate, hf.refused (hbound m hm) ?_⟩
      intro hok
      cases hresult.symm.trans hok

omit [Scalar α] in
/-- A commit succeeds for nodes and members alike. -/
theorem commit_eq (hbound : ∀ m ∈ s.members, m.transformation.bound? = .ok m.beam.ends) :
    s.commit.result = .ok ()
      ∧ s.commit.state = ⟨s.nodes.map Node.commit, s.members.map Member.snapshot⟩ := by
  have hcommit (m : Member n α) (hm : m ∈ s.members) :
      m.transformation.commit = .ok m.transformation.snapshot () :=
    Transformation.commit_of_bound (hbound m hm)
  have hok (m : Member n α) (hm : m ∈ s.members) : m.transformation.commit.result = .ok () :=
    congrArg Outcome.result (hcommit m hm)
  have hstate : s.commit.state = ⟨s.nodes.map Node.commit,
      s.members.map fun m => (m.within Transformation.commit).state⟩ :=
    onTransformations_state (s := { s with nodes := s.nodes.map Node.commit }) hok
  refine ⟨onTransformations_eq_ok_iff.mpr hok, hstate.trans ?_⟩
  refine Structure.ext rfl (List.map_congr_left fun m hm => ?_)
  simp only [Member.within, hcommit m hm]
  rfl

omit [Scalar α] in
/-- What the nodes report is not changed by it. -/
theorem trial_map_commit (nodes : Vector (Node α) n) (members : List (Member n α)) :
    trial ⟨nodes.map Node.commit, members⟩ = fun k => (nodes.get k).trial := by
  funext k
  change ((nodes.map Node.commit)[k.val]).trial = _
  rw [Vector.getElem_map]
  rfl

theorem commit_isJudged (h : s.IsJudged tol latest) : s.commit.state.IsJudged tol latest := by
  obtain ⟨-, hstate⟩ := commit_eq h.bound
  rw [hstate]
  refine ⟨fun m' hm' => ?_, fun hlatest m' hm' => ?_, fun hlatest => ?_⟩
  · obtain ⟨m, hm, rfl⟩ := List.mem_map.mp hm'
    exact h.bound m hm
  · obtain ⟨m, hm, rfl⟩ := List.mem_map.mp hm'
    rw [trial_map_commit]
    exact (h.upToDate hlatest m hm).snapshot
  · obtain ⟨m, hm, hstage⟩ := h.waiting hlatest
    exact ⟨_, List.mem_map_of_mem hm, hstage⟩

/-- **Every operation** is judged by its result, or keeps the judgement. -/
theorem perform_isJudged (h : s.IsJudged tol latest) (op : Operation n α) :
    (op.perform tol s).state.IsJudged tol (op.note tol s latest) := by
  cases op with
  | commit => exact commit_isJudged h
  | setTrial d =>
    exact onTransformations_isJudged (Transformation.isFollowing_update tol _) h.bound
  | revert =>
    exact onTransformations_isJudged (Transformation.isFollowing_revert tol _) h.bound

/-- **Every run** is judged by the outcome of its latest evaluation. -/
theorem after_isJudged (operations : List (Operation n α)) (h : s.IsJudged tol latest) :
    (after tol s operations).IsJudged tol (verdict tol s latest operations) := by
  induction operations generalizing s latest with
  | nil => exact h
  | cons op operations ih => exact ih (perform_isJudged h op)

/-! ## Responses -/

/-- A member with a tangent contributes. -/
theorem contribution_of_tangent (tol : Tolerances α) {m : Member n α} {T : ElementMatrix α}
    (h : m.transformation.tangent? = .ok T) : ∃ c, m.contribution tol = .ok c := by
  obtain ⟨hforce, hstiffness⟩ := Transformation.query_of_tangent h
  obtain ⟨f, hf⟩ := hforce m.localForce
  obtain ⟨⟨k, notices⟩, hk⟩ := hstiffness tol m.stiffness m.localForce
  refine ⟨((k, f), notices), ?_⟩
  simp only [Member.contribution, hk]
  change (m.transformation.pushForce m.localForce >>= _) = _
  rw [hf]
  rfl

/-- A member without one does not. -/
theorem contribution_of_error {m : Member n α} {e : Failure α}
    (h : m.transformation.tangent? = .error e) : m.contribution tol = .error e := by
  have hstiffness : m.transformation.pushStiffness tol m.stiffness m.localForce = .error e := by
    rw [Transformation.pushStiffness, h]
    rfl
  simp only [Member.contribution, hstiffness]
  rfl

/-- **Members that all have a tangent** are assembled. -/
theorem contributions_of_tangent (tol : Tolerances α) {members : List (Member n α)}
    (h : ∀ m ∈ members, ∃ T, m.transformation.tangent? = .ok T) :
    ∃ parts, (contributions tol members).2 = .ok parts := by
  induction members with
  | nil => exact ⟨[], rfl⟩
  | cons m members ih =>
    obtain ⟨⟨T, hT⟩, hmembers⟩ := List.forall_mem_cons.mp h
    obtain ⟨⟨⟨k, f⟩, notices⟩, hcontribution⟩ := contribution_of_tangent tol hT
    obtain ⟨parts, hparts⟩ := ih hmembers
    rw [contributions]
    simp only [hcontribution, resolve_components, hparts]
    exact ⟨_, rfl⟩

/-- **Where a member waits**, nothing is assembled. -/
theorem contributions_of_waiting (tol : Tolerances α) {members : List (Member n α)}
    (hbound : ∀ m ∈ members, m.transformation.stage ≠ .uninitialized)
    (h : ∃ m ∈ members, m.transformation.stage ≠ .current) :
    ∃ m ∈ members, (contributions tol members).2 = .error (.outdated m.transformation.tag) := by
  induction members with
  | nil =>
    obtain ⟨m, hm, -⟩ := h
    cases hm
  | cons m members ih =>
    obtain ⟨hm, hmembers⟩ := List.forall_mem_cons.mp hbound
    cases htangent : m.transformation.tangent? with
    | error e =>
      obtain rfl := Transformation.outdated_of_tangent hm htangent
      refine ⟨m, List.mem_cons_self, ?_⟩
      rw [contributions]
      simp only [contribution_of_error htangent]
    | ok T =>
      -- this one is assembled, so the one that waits comes later
      obtain ⟨w, hw, hstage⟩ := h
      have hrest : w ∈ members := by
        refine (List.mem_cons.mp hw).resolve_left fun heq => ?_
        obtain ⟨hwaits, -⟩ := Transformation.query_of_not_current (heq ▸ hstage)
        cases htangent.symm.trans hwaits
      obtain ⟨w', hw', hresult⟩ := ih hmembers ⟨w, hrest, hstage⟩
      obtain ⟨⟨⟨k, f⟩, notices⟩, hcontribution⟩ := contribution_of_tangent tol htangent
      refine ⟨w', List.mem_cons_of_mem m hw', ?_⟩
      rw [contributions]
      simp only [hcontribution, resolve_components, hresult]
      rfl

/-- **The response is answered** for members that are up to date. -/
theorem IsJudged.response_ok (h : s.IsJudged tol true) : ∃ R, (s.response tol).result = .ok R := by
  obtain ⟨parts, hparts⟩ := contributions_of_tangent tol
    fun m hm => (h.upToDate rfl m hm).evaluation.exists_tangent
  have hresult : (s.response tol).result = (contributions tol s.members).2.map fun parts => _ := rfl
  rw [hparts] at hresult
  exact ⟨_, hresult⟩

/-- **It is refused** where one of them waits. -/
theorem IsJudged.response_error (h : s.IsJudged tol false) :
    ∃ m ∈ s.members, (s.response tol).result = .error (.outdated m.transformation.tag) := by
  obtain ⟨w, hw, hstage⟩ := h.waiting rfl
  obtain ⟨m, hm, hresult⟩ := contributions_of_waiting tol
    (fun m hm => (Transformation.bound?_eq_ok_iff.mp (h.bound m hm)).1)
    ⟨w, hw, by rw [hstage]; exact Stage.noConfusion⟩
  have hresponse : (s.response tol).result
      = (contributions tol s.members).2.map fun parts => _ := rfl
  rw [hresult] at hresponse
  exact ⟨m, hm, hresponse⟩

/-- An answered response is one of members that are up to date. -/
theorem IsJudged.of_response (h : s.IsJudged tol latest) {R : Response (6 * n) α}
    (hR : (s.response tol).result = .ok R) : ∀ m ∈ s.members, m.IsUpToDate tol s.trial := by
  cases latest with
  | true => exact h.upToDate rfl
  | false =>
    obtain ⟨m, -, hrefused⟩ := h.response_error
    cases hR.symm.trans hrefused

/-- **A response is one of the nodes as they are.** After construction and any sequence of
operations, any of which may fail at any member: if the response is answered, then the
kinematics of every member is that of the trial displacements that its two nodes hold. It
is answered if the latest of construction, trial displacements and reverts succeeded. If
that failed, the response is refused, for a member that was not updated, whatever the
commits since. So old members and new ones are never assembled together. -/
theorem response_follows_nodes (nodes : Vector (Node α) n)
    (beams : List (Except (Failure α) (Beam n α)))
    (hbuild : (build tol nodes beams).result = .ok ()) (operations : List (Operation n α)) :
    let built := (build tol nodes beams).state
    let s := after tol built operations
    (∀ R, (s.response tol).result = .ok R → ∀ m ∈ s.members, m.IsUpToDate tol s.trial)
      ∧ (verdict tol built true operations = true → ∃ R, (s.response tol).result = .ok R)
      ∧ (verdict tol built true operations = false →
        ∃ m ∈ s.members, (s.response tol).result = .error (.outdated m.transformation.tag)) := by
  intro built s
  have hjudged : s.IsJudged tol (verdict tol built true operations) :=
    after_isJudged operations (build_isJudged hbuild)
  refine ⟨fun R hR => hjudged.of_response hR, fun hlatest => ?_, fun hlatest => ?_⟩
  · rw [hlatest] at hjudged
    exact hjudged.response_ok
  · rw [hlatest] at hjudged
    exact hjudged.response_error

end Structure

/-! ### Twisted beams -/

namespace Structure

variable [SeriesAngle] {tol : Tolerances ℝ}

/-- One node moved onto the other. -/
noncomputable def pairCollapse : Vector ℝ (6 * 2) := #v[0, 0, 0, 0, 0, 0, -1, 0, 0, 0, 0, 0]

/-- A straight beam that is built does not follow it. -/
theorem straightBeam_collapse (h0 : 0 ≤ tol.parallel) (h1 : tol.parallel < 1)
    (profile : Section ℝ) :
    let m := (Member.build tol pairNodes (straightBeam profile)).state
    (m.transformation.update tol (displacementAt pairCollapse)).result ≠ .ok () := by
  intro m
  obtain ⟨r, href, hoffset, -⟩ := Session.straight_reference h0 h1
  have hr := Transformation.referenceOf_eq_ok h0 href
  have hpositions : Transformation.referenceOf tol (Member.configuration (straightBeam profile))
      (Member.positions pairNodes (straightBeam profile)) = .ok r := href
  obtain ⟨-, hstate⟩ := Member.build_eq h0 hpositions
  set t := Member.bound pairNodes (straightBeam profile) r
  have hsound : t.IsSound tol ⟨0, ⟨1, 0, 0⟩⟩ := Transformation.attached_isSound _ _ _ hr
  have hbound : t.IsBound ⟨0, 1⟩ := Transformation.attached_isBound _ _ _ r
  have hinitial : t.initial = .both 0 := Session.attached_initial _ _ _ r
  have hkeeps := t.update_keeps tol fun k => (pairNodes.get k).trial
  have hupdate := Transformation.update_sound h0 hsound hbound fun k => (pairNodes.get k).trial
  set u := (t.update tol fun k => (pairNodes.get k).trial).state
  change m = _ at hstate
  rw [hstate]
  have hdisplacement : u.displacement ((⟨0, 1⟩ : Ends (Fin 2)).map (displacementAt pairCollapse))
      = (⟨0, ⟨⟨-1, 0, 0⟩, 0⟩⟩ : Ends (Displacement ℝ)) := by
    rw [Transformation.displacement, hkeeps.initial, hinitial]
    exact sub_zero (⟨0, ⟨⟨-1, 0, 0⟩, 0⟩⟩ : Ends (Displacement ℝ))
  obtain ⟨e, heq⟩ := Transformation.update_of_coinciding h0 hupdate.1 hupdate.2.1
    ((congrArg Reference.offset hkeeps.reference).trans hoffset) hdisplacement
    (by ext <;> simp)
  rw [heq]
  intro hok
  cases hok

/-- Straight beams are built, and follow the twist after that. -/
theorem verdict_twisted (hangle : 0 ≤ SeriesAngle.angle) (hseries : SeriesAngle.angle < 1)
    (h0 : 0 ≤ tol.parallel) (hcos : tol.parallel < Real.cos 1) (profiles : List (Section ℝ)) :
    let built := build tol pairNodes ((profiles.map straightBeam).map .ok)
    built.result = .ok () ∧ verdict tol built.state true [.setTrial pairTwist] = true := by
  intro built
  obtain ⟨hrun, -⟩ := run_twisted hangle hseries h0 hcos profiles
  have hsteps : (built.andThen fun s _ => s.setTrial tol pairTwist).result = .ok () := hrun
  obtain ⟨_, hbuild, hset⟩ := Outcome.andThen_eq_ok_iff.mp hsteps
  refine ⟨hbuild, ?_⟩
  change (built.state.setTrial tol pairTwist).result.isOk = true
  rw [hset]
  rfl

omit [SeriesAngle] in
/-- Two beams that follow a twist, and that are moved onto one node afresh. -/
theorem response_follows_nodes_twisted :
    letI : SeriesAngle := .exact
    let thick : Section ℝ := ⟨1, 1, 1, 1, 1, 1⟩
    let thin : Section ℝ := ⟨1, 1, 1 / 2, 1 / 4, 1 / 4, 1 / 2⟩
    let built := (build .standard pairNodes
      [.ok (straightBeam thick), .ok (straightBeam thin)]).state
    let s := after .standard built [.setTrial pairTwist, .commit]
    let s' := after .standard built [.setTrial pairCollapse, .commit]
    (∃ R, (s.response .standard).result = .ok R) ∧ (∀ m ∈ s.members, m.IsUpToDate .standard s.trial)
      ∧ ∃ m ∈ s'.members,
        (s'.response .standard).result = .error (.outdated m.transformation.tag) := by
  let _ : SeriesAngle := .exact
  intro thick thin built s s'
  have h0 := Tolerances.standard_admissible_exact.parallel_nonneg
  have hcos := Tolerances.standard_parallel_lt_cos
  obtain ⟨hbuild, hlatest⟩ := verdict_twisted le_rfl one_pos h0 hcos [thick, thin]
  have hcollapse : (built.setTrial .standard pairCollapse).result ≠ .ok () := by
    intro hok
    rw [setTrial_eq] at hok
    have hbeams : ∀ beam ∈ [straightBeam thick, straightBeam thin],
        (Member.build .standard pairNodes beam).result = .ok () := buildMembers_eq_ok_iff.mp hbuild
    have hmembers : built.members = [straightBeam thick, straightBeam thin].map
        fun beam => (Member.build .standard pairNodes beam).state := buildMembers_state hbeams
    refine straightBeam_collapse h0 (hcos.trans_le (Real.cos_le_one 1)) thick
      (onTransformations_eq_ok_iff.mp hok _ ?_)
    change _ ∈ built.members
    rw [hmembers]
    exact List.mem_cons_self
  have hverdict : verdict .standard built true [.setTrial pairCollapse, .commit] = false := by
    change (built.setTrial .standard pairCollapse).result.isOk = false
    cases h : (built.setTrial .standard pairCollapse).result with
    | ok u => exact absurd h hcollapse
    | error e => rfl
  obtain ⟨hcurrent, hanswered, -⟩ :=
    response_follows_nodes pairNodes _ hbuild [.setTrial pairTwist, .commit]
  obtain ⟨-, -, hrefused⟩ :=
    response_follows_nodes pairNodes _ hbuild [.setTrial pairCollapse, .commit]
  obtain ⟨R, hR⟩ := hanswered hlatest
  exact ⟨⟨R, hR⟩, hcurrent R hR, hrefused hverdict⟩

end Structure

end Corotation
