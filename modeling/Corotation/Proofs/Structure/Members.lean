import Corotation.Proofs.System.Assembly
import Corotation.Proofs.Transformation.Evaluation
import Corotation.Structure
/-!
# The members of a structure

An operation on a structure is done on each member in turn, and one member does not see
the others. So where it succeeds, it succeeds on every member, and each has gone its own
way (`forEach_eq_ok_iff`, `onTransformations_eq_ok_iff`); the same holds of the members
that are built (`buildMembers_eq_ok_iff`).

In the same way the response is a sum over the members, of what each deposits in the
entries of the system (`response_eq`).
-/

namespace Corotation

/-! ## Operations on all of a list -/

namespace Outcome

variable {α σ β γ : Type}

/-- A second operation succeeds after a first one that did. -/
theorem andThen_eq_ok_iff {o : Outcome α σ β} {next : σ → β → Outcome α σ γ} {c : γ} :
    (o.andThen next).result = .ok c ↔ ∃ b, o.result = .ok b ∧ (next o.state b).result = .ok c := by
  unfold andThen
  cases h : o.result with
  | error e => simp
  | ok b => simp

theorem andThen_state {o : Outcome α σ β} {b : β} (h : o.result = .ok b)
    (next : σ → β → Outcome α σ γ) : (o.andThen next).state = (next o.state b).state := by
  unfold andThen
  rw [h]

variable {f : σ → Outcome α σ Unit}

/-- **What succeeds on all of a list** succeeds on each, and leaves what it leaves of
each. -/
theorem forEach_eq_ok_iff {xs : List σ} : (forEach f xs).result = .ok ()
    ↔ ∀ x ∈ xs, (f x).result = .ok () := by
  induction xs with
  | nil => simp [forEach, ok]
  | cons x xs ih =>
    unfold forEach
    cases h : (f x).result with
    | error e => simp [h]
    | ok u => simp [h, ih]

theorem forEach_state {xs : List σ} (h : ∀ x ∈ xs, (f x).result = .ok ()) :
    (forEach f xs).state = xs.map fun x => (f x).state := by
  induction xs with
  | nil => rfl
  | cons x xs ih =>
    obtain ⟨hx, hxs⟩ := List.forall_mem_cons.mp h
    unfold forEach
    simp only [hx, ih hxs, List.map_cons]

end Outcome

namespace Structure

section Lists

variable {α : Type} [Scalar α] {n : Nat} {tol : Tolerances α} {nodes : Vector (Node α) n}

/-- **Members are built** for all of the beams or not at all. -/
theorem buildMembers_eq_ok_iff {beams : List (Beam n α)} :
    (buildMembers tol nodes (beams.map .ok)).result = .ok ()
      ↔ ∀ beam ∈ beams, (Member.build tol nodes beam).result = .ok () := by
  induction beams with
  | nil => simp [buildMembers, Outcome.ok]
  | cons beam beams ih =>
    rw [List.map_cons, buildMembers]
    cases h : (Member.build tol nodes beam).result with
    | error e => simp [h]
    | ok u => simp [h, ih]

theorem buildMembers_state {beams : List (Beam n α)}
    (h : ∀ beam ∈ beams, (Member.build tol nodes beam).result = .ok ()) :
    (buildMembers tol nodes (beams.map .ok)).state
      = beams.map fun beam => (Member.build tol nodes beam).state := by
  induction beams with
  | nil => rfl
  | cons beam beams ih =>
    obtain ⟨hbeam, hbeams⟩ := List.forall_mem_cons.mp h
    rw [List.map_cons, buildMembers]
    simp only [hbeam, ih hbeams, List.map_cons]

variable {f : Transformation (Fin n) α → Outcome α (Transformation (Fin n) α) Unit}
variable {s : Structure n α}

omit [Scalar α] in
/-- An operation succeeds on a structure if it does on every transformation. -/
theorem onTransformations_eq_ok_iff : (s.onTransformations f).result = .ok ()
    ↔ ∀ m ∈ s.members, (f m.transformation).result = .ok () :=
  Outcome.forEach_eq_ok_iff

omit [Scalar α] in
theorem onTransformations_state (h : ∀ m ∈ s.members, (f m.transformation).result = .ok ()) :
    (s.onTransformations f).state = ⟨s.nodes, s.members.map fun m => (m.within f).state⟩ :=
  Structure.ext rfl (Outcome.forEach_state h)

/-- Where trial displacements are set, every transformation follows them. -/
theorem setTrial_eq (tol : Tolerances α) (d : Vector α (6 * n)) (s : Structure n α) :
    s.setTrial tol d = ({ s with
      nodes := Vector.ofFn fun k => (s.nodes.get k).setTrial (displacementAt d k) }
        ).onTransformations fun t => t.update tol (displacementAt d) := by
  have htrial :
      trial ⟨Vector.ofFn fun k => (s.nodes.get k).setTrial (displacementAt d k), s.members⟩
        = displacementAt d := by
    funext k
    change ((Vector.ofFn fun k => (s.nodes.get k).setTrial (displacementAt d k))[k.val]).trial = _
    rw [Vector.getElem_ofFn]
    rfl
  rw [setTrial, updateMembers, htrial]

/-- Trial displacements that every transformation can follow. -/
theorem setTrial_of_ok {tol : Tolerances α} {d : Vector α (6 * n)}
    (h : ∀ m ∈ s.members, (m.transformation.update tol (displacementAt d)).result = .ok ()) :
    (s.setTrial tol d).result = .ok ()
      ∧ (s.setTrial tol d).state.members
        = s.members.map fun m => (m.within fun t => t.update tol (displacementAt d)).state := by
  rw [setTrial_eq]
  exact ⟨onTransformations_eq_ok_iff.mpr h, congrArg Structure.members (onTransformations_state h)⟩

/-! ## The places of a member -/

/-- The components of a node in the system. -/
def slots (k : Fin n) : List (Fin (6 * n)) :=
  (List.finRange 6).map fun c => ⟨6 * k.val + c.val, by omega⟩

omit [Scalar α] in
/-- Positions that a system has are found. -/
theorem resolve_map_val (n : Nat) (ks : List (Fin n)) :
    resolve (α := α) n (ks.map fun k => (k.val : Int)) = .ok ks := by
  have hposition (k : Fin n) : position? n (k.val : Int) = some k := by
    unfold position?
    simp [Int.not_lt.mpr (Int.natCast_nonneg k.val)]
  unfold resolve
  induction ks with
  | nil => rfl
  | cons k ks ih =>
    rw [List.map_cons, List.mapM_cons, ih, hposition]
    rfl

/-- The components of both end nodes of a member, the first end before the second. -/
def places (beam : Beam n α) : List (Fin (6 * n)) := slots beam.ends.i ++ slots beam.ends.j

omit [Scalar α] in
theorem resolve_components (m : Member n α) :
    resolve (α := α) (6 * n) m.components = .ok (places m.beam) := by
  have hnode (k : Fin n) :
      Layout.frame.nodeIndices k.val = (slots k).map fun c => (c.val : Int) := by
    change (List.range 6).map (fun c : Nat => (6 : Int) * k.val + c) = _
    rw [slots, List.map_map, ← List.map_coe_finRange_eq_range, List.map_map]
    exact List.map_congr_left fun c _ => by simp
  have hcomponents : m.components = (places m.beam).map fun k => (k.val : Int) := by
    rw [Member.components, Layout.elementMap, List.flatMap_cons, List.flatMap_singleton, hnode,
      hnode, places, List.map_append]
  rw [hcomponents, resolve_map_val]

end Lists

/-! ## The response -/

section Sums

variable [SeriesAngle] {n : Nat} {tol : Tolerances ℝ} {s : Structure n ℝ}

/-- What an updated member contributes. -/
noncomputable def contributed (tol : Tolerances ℝ) (m : Member n ℝ) : Contribution (6 * n) ℝ where
  map := places m.beam
  stiffness := m.transformation.nodalStiffness tol m.stiffness m.localForce
  force := m.transformation.nodalForce tol m.localForce

/-- The force of a member in a component of the system. -/
noncomputable def forceAt (tol : Tolerances ℝ) (m : Member n ℝ) (k : Fin (6 * n)) : ℝ :=
  deposit (places m.beam) (ElementVector.toList (contributed tol m).force) k

/-- The stiffness of a member in an entry of the system. -/
noncomputable def stiffnessAt (tol : Tolerances ℝ) (m : Member n ℝ) (k l : Fin (6 * n)) : ℝ :=
  depositAt (places m.beam) (ElementMatrix.toRows (contributed tol m).stiffness) k l

/-- The contributions of updated members. -/
theorem contributions_eq {members : List (Member n ℝ)}
    (h : ∀ m ∈ members, ∃ d, m.transformation.IsCurrent tol d) :
    (contributions tol members).2 = .ok (members.map (contributed tol)) := by
  induction members with
  | nil => rfl
  | cons m members ih =>
    obtain ⟨⟨d, hm⟩, hmembers⟩ := List.forall_mem_cons.mp h
    obtain ⟨hforce, hstiffness⟩ := hm.projections m.stiffness m.localForce
    have hcontribution : m.contribution tol = .ok (((contributed tol m).stiffness,
        (contributed tol m).force), Transformation.rightAngleNotices tol m.transformation.tag
          m.transformation.deformation) := by
      simp only [Member.contribution, hstiffness]
      change (m.transformation.pushForce m.localForce >>= _) = _
      rw [hforce]
      rfl
    rw [contributions]
    simp only [hcontribution, resolve_components, ih hmembers]
    rfl

/-- **The response adds up over the members.** -/
theorem response_eq (h : ∀ m ∈ s.members, ∃ d, m.transformation.IsCurrent tol d) :
    ∃ R, (s.response tol).result = .ok R
      ∧ (∀ k, R.force.get k = (s.members.map fun m => forceAt tol m k).sum)
      ∧ ∀ k l, (R.tangent.get k).get l = (s.members.map fun m => stiffnessAt tol m k l).sum := by
  have hresult : (s.response tol).result
      = (contributions tol s.members).2.map fun parts => _ := rfl
  rw [contributions_eq h] at hresult
  refine ⟨_, hresult, fun k => ?_, fun k l => ?_⟩
  · rw [SystemVector.get_assemble, List.map_map, List.map_map]
    rfl
  · rw [Square.get_assemble, List.map_map, List.map_map]
    rfl

omit [SeriesAngle] in
/-- A response is known by its entries. -/
theorem response_ext {m : Nat} {R R' : Response m ℝ} (hforce : ∀ k, R.force.get k = R'.force.get k)
    (htangent : ∀ k l, (R.tangent.get k).get l = (R'.tangent.get k).get l) : R = R' :=
  Response.ext (Vector.ext fun k hk => Vector.ext fun l hl => htangent ⟨k, hk⟩ ⟨l, hl⟩)
    (Vector.ext fun k hk => hforce ⟨k, hk⟩)

end Sums

end Structure

end Corotation
