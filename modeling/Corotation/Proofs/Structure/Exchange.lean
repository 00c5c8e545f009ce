import Mathlib.Data.Multiset.MapFold
import Corotation.Proofs.Structure.Members
import Corotation.Proofs.Transformation.Reversal
import Corotation.Proofs.Transformation.Twisted
/-!
# The order of the beams and of their ends

Two structures have the same nodes and the same beams, but for the order in which the
beams come and for the end of each that comes first. Each member of the one has a partner
among those of the other, which is the same member or the one from the other end
(`Member.IsCopy`). Building does this (`IsCopy.build`), and every operation keeps it
(`IsCopy.perform`), since no member sees the others, and a member and its partner see the
same nodes.

Partners deposit the same in every entry of the system (`Member.IsCopy.forceAt_eq`,
`Member.IsCopy.stiffnessAt_eq`): from the other end both the components and the entries
are listed from the seventh on. The response is the sum over the members, so it is the
same for both structures (`response_exchange`).
-/

namespace Corotation

/-- The beam from its other end. -/
def Beam.exchange {n : Nat} {α : Type} (b : Beam n α) : Beam n α := { b with ends := b.ends.swap }

/-- Partners found for the members of one list among those of another stay partners under
what is done to both. -/
theorem rel_map_of_forall {β γ β' γ' : Type} {r : β → γ → Prop} {p : β' → γ' → Prop}
    {P : β → Prop} {Q : γ → Prop} {f : β → β'} {g : γ → γ'} {xs : List β} {ys : List γ}
    (h : Multiset.Rel r xs ys) (hP : ∀ x ∈ xs, P x)
    (hstep : ∀ x y, r x y → P x → Q y ∧ p (f x) (g y)) :
    (∀ y ∈ ys, Q y) ∧ Multiset.Rel p (xs.map f : List β') (ys.map g : List γ') := by
  refine ⟨fun y hy => ?_, ?_⟩
  · obtain ⟨x, hx, hxy⟩ := Multiset.exists_mem_of_rel_of_mem (Multiset.rel_flip.mpr h)
      (Multiset.mem_coe.mpr hy)
    exact (hstep x y hxy (hP x (Multiset.mem_coe.mp hx))).1
  · rw [← Multiset.map_coe, ← Multiset.map_coe, Multiset.rel_map]
    exact h.mono fun x hx y _ hxy => (hstep x y hxy (hP x (Multiset.mem_coe.mp hx))).2

/-! ## Components listed from the other end -/

section Lists

variable {β : Type}

theorem toList_swap (p : ElementVector β) :
    ElementVector.toList (Ends.swap p) = (ElementVector.toList p).rotate 6 := rfl

theorem toRows_exchange (k : Slots (Slots (Mat3 β))) :
    ElementMatrix.toRows (ElementMatrix.exchange k)
      = ((ElementMatrix.toRows k).rotate 6).map fun row => row.rotate 6 := rfl

theorem length_of_mem_toRows {k : Slots (Slots (Mat3 β))} {row : List β}
    (h : row ∈ ElementMatrix.toRows k) : row.length = 12 := by
  obtain ⟨_, -, hrow⟩ := List.mem_flatMap.mp h
  simp only [List.mem_cons, List.not_mem_nil, or_false] at hrow
  rcases hrow with rfl | rfl | rfl <;> rfl

theorem places_exchange {n : Nat} {α : Type} (b : Beam n α) :
    Structure.places b.exchange = (Structure.places b).rotate 6 := by
  have hrotate := List.rotate_append_length_eq (Structure.slots b.ends.i) (Structure.slots b.ends.j)
  exact hrotate.symm

end Lists

open Transformation (IsReady IsReversal IsEvenhanded)

variable [SeriesAngle] {n : Nat} {tol : Tolerances ℝ}

/-! ## Partners -/

namespace Member

/-- The second member is the first one from its other end. -/
structure IsExchanged (tol : Tolerances ℝ) (m m' : Member n ℝ) : Prop where
  beam : m'.beam = m.beam.exchange
  stiffness : m'.stiffness = m.stiffness
  mirror : ∀ u : ElementVector ℝ,
    ElementMatrix.apply m.stiffness u.mirror = (ElementMatrix.apply m.stiffness u).mirror
  transformation : IsReversal tol m.transformation m'.transformation

/-- The second member is the first one, perhaps from its other end, and both were brought
up to date. -/
def IsCopy (tol : Tolerances ℝ) (m m' : Member n ℝ) : Prop :=
  (m' = m ∧ ∃ nodes d, IsReady tol m.transformation nodes d) ∨ m.IsExchanged tol m'

variable {m m' : Member n ℝ}

/-- **An operation on both** keeps them partners. -/
theorem IsCopy.within {f : Transformation (Fin n) ℝ → Outcome ℝ (Transformation (Fin n) ℝ) Unit}
    (hf : IsEvenhanded tol f) (h : IsCopy tol m m') (hok : (f m.transformation).result = .ok ()) :
    (f m'.transformation).result = .ok () ∧ IsCopy tol (m.within f).state (m'.within f).state := by
  rcases h with ⟨rfl, nodes, d, hready⟩ | h
  · obtain ⟨d', hready'⟩ := hf.ready hready hok
    exact ⟨hok, .inl ⟨rfl, nodes, d', hready'⟩⟩
  · obtain ⟨hok', hreversal⟩ := hf.reversal h.transformation hok
    exact ⟨hok', .inr ⟨h.beam, h.stiffness, h.mirror, hreversal⟩⟩

theorem IsCopy.isCurrent (h : IsCopy tol m m') : (∃ d, m.transformation.IsCurrent tol d)
    ∧ ∃ d, m'.transformation.IsCurrent tol d := by
  rcases h with ⟨rfl, nodes, d, hready⟩ | h
  · exact ⟨⟨d, hready.current⟩, d, hready.current⟩
  · obtain ⟨nodes, d, hready, hready'⟩ := h.transformation.ready
    exact ⟨⟨d, hready.current⟩, d.swap, hready'.current⟩

/-- The local rotations at both ends are below half a turn. -/
def IsBelowHalfTurn (m : Member n ℝ) : Prop :=
  m.transformation.deformation.i.rot.norm < Real.pi
    ∧ m.transformation.deformation.j.rot.norm < Real.pi

variable (h0 : 0 ≤ tol.parallel) (hangle : 0 ≤ SeriesAngle.angle)
variable (hseries : SeriesAngle.angle < Real.pi) (hlt : m.IsBelowHalfTurn)

include h0 hangle hseries hlt

/-- **The contribution** from the other end. -/
theorem IsExchanged.contributed (h : m.IsExchanged tol m') :
    (Structure.contributed tol m').force = Ends.swap (Structure.contributed tol m).force
      ∧ (Structure.contributed tol m').stiffness
        = ElementMatrix.exchange (Structure.contributed tol m).stiffness := by
  have hmirrored := h.transformation.isMirrored h0 hangle hseries hlt.1 hlt.2
  have hlocal : m'.localForce = m.localForce.mirror := by
    rw [localForce, h.stiffness, hmirrored.deformation, h.mirror, localForce]
  refine ⟨?_, ?_⟩
  · change m'.transformation.nodalForce tol m'.localForce = _
    rw [hlocal, hmirrored.nodalForce]
    rfl
  · change m'.transformation.nodalStiffness tol m'.stiffness m'.localForce = _
    rw [hlocal, h.stiffness, hmirrored.nodalStiffness h.mirror]
    rfl

theorem IsCopy.forceAt_eq (h : IsCopy tol m m') (k : Fin (6 * n)) :
    Structure.forceAt tol m' k = Structure.forceAt tol m k := by
  rcases h with ⟨rfl, -⟩ | h
  · rfl
  · obtain ⟨hforce, -⟩ := h.contributed h0 hangle hseries hlt
    rw [Structure.forceAt, hforce, h.beam, places_exchange, toList_swap, deposit_rotate rfl]
    rfl

theorem IsCopy.stiffnessAt_eq (h : IsCopy tol m m') (k l : Fin (6 * n)) :
    Structure.stiffnessAt tol m' k l = Structure.stiffnessAt tol m k l := by
  rcases h with ⟨rfl, -⟩ | h
  · rfl
  · obtain ⟨-, hstiffness⟩ := h.contributed h0 hangle hseries hlt
    rw [Structure.stiffnessAt, hstiffness, h.beam, places_exchange, toRows_exchange,
      depositAt_rotate rfl]
    · rfl
    · exact fun row hrow => (length_of_mem_toRows hrow).symm

end Member

/-! ## Building -/

namespace Member

variable {nodes : Vector (Node ℝ) n} {beam : Beam n ℝ}

/-- What the transformation of a beam is made from. -/
def configuration (beam : Beam n ℝ) : Configuration ℝ := ⟨beam.id, beam.vecxz, none, .none⟩

/-- The transformation of a beam once it is bound to its nodes. -/
noncomputable def bound (nodes : Vector (Node ℝ) n) (beam : Beam n ℝ) (r : Reference ℝ) :
    Transformation (Fin n) ℝ :=
  (Transformation.ofConfiguration (configuration beam)).attached beam.ends
    (beam.ends.map fun k => (nodes.get k).trial) r

/-- Where the ends of a beam are. -/
def positions (nodes : Vector (Node ℝ) n) (beam : Beam n ℝ) : Ends (Vec3 ℝ) :=
  beam.ends.map fun k => (nodes.get k).position

/-- A member is built from a reference geometry and one update. -/
theorem build_eq (h0 : 0 ≤ tol.parallel) {r : Reference ℝ}
    (href : Transformation.referenceOf tol (configuration beam) (positions nodes beam) = .ok r) :
    let o := (bound nodes beam r).update tol fun k => (nodes.get k).trial
    ((build tol nodes beam).result = .ok () ↔ o.result = .ok ())
      ∧ (build tol nodes beam).state = ⟨beam, o.state, beam.profile.stiffness r.length⟩ := by
  intro o
  have hreference : o.state.reference = r := (Transformation.update_keeps tol _ _).reference
  obtain ⟨hresult, hstate⟩ := Transformation.attach_eq (i := beam.ends.i) (j := beam.ends.j)
    (t := (Transformation.ofConfiguration (configuration beam) : Transformation (Fin n) ℝ)) h0 href
  have hnext : (build tol nodes beam).state
      = ⟨beam, o.state, beam.profile.stiffness o.state.reference.length⟩ := by
    have hupdate := Outcome.andThen_state hresult
      fun t _ => t.update tol fun k => (nodes.get k).trial
    rw [hstate] at hupdate
    exact congrArg (fun t => (⟨beam, t, beam.profile.stiffness t.reference.length⟩ : Member n ℝ))
      hupdate
  refine ⟨?_, by rw [hnext, hreference]⟩
  refine Outcome.andThen_eq_ok_iff.trans ⟨?_, fun hok => ⟨(), hresult, ?_⟩⟩
  · rintro ⟨-, -, hok⟩
    rwa [hstate] at hok
  · rw [hstate]
    exact hok

/-- A member that is built has a reference geometry. -/
theorem exists_referenceOf_of_build (h0 : 0 ≤ tol.parallel)
    (hok : (build tol nodes beam).result = .ok ()) : ∃ r,
      Transformation.referenceOf tol (configuration beam) (positions nodes beam) = .ok r := by
  have hsteps : (((Transformation.ofConfiguration (configuration beam)).attach tol
      [some (beam.ends.i, nodes.get beam.ends.i),
       some (beam.ends.j, nodes.get beam.ends.j)]).andThen
        fun t _ => t.update tol fun k => (nodes.get k).trial).result = .ok () := hok
  obtain ⟨_, hattach, -⟩ := Outcome.andThen_eq_ok_iff.mp hsteps
  obtain ⟨i, ni, j, nj, r, hpair, href, -⟩ := Transformation.attach_of_ok h0 hattach
  cases hpair
  exact ⟨r, href⟩

/-- **A beam from its other end** is built into the member from its other end. -/
theorem build_exchange (h0 : 0 ≤ tol.parallel) (hok : (build tol nodes beam).result = .ok ()) :
    (build tol nodes beam.exchange).result = .ok ()
      ∧ IsExchanged tol (build tol nodes beam).state (build tol nodes beam.exchange).state := by
  obtain ⟨r, href⟩ := exists_referenceOf_of_build h0 hok
  have href' : Transformation.referenceOf tol (configuration beam.exchange)
      (positions nodes beam.exchange) = .ok r.reverse := Transformation.referenceOf_swap rfl href
  have hr := Transformation.referenceOf_eq_ok h0 href
  have hr' := Transformation.referenceOf_eq_ok h0 href'
  obtain ⟨hbuild, hstate⟩ := build_eq h0 href
  obtain ⟨hbuild', hstate'⟩ := build_eq h0 href'
  have hreversed : Transformation.IsReversed (bound nodes beam r)
      (bound nodes beam.exchange r.reverse) := Transformation.attached_isReversed hr hr' _ _
  obtain ⟨hok', hreversal⟩ := hreversed.update h0
    (Transformation.attached_isSound _ _ _ hr).versors
    (Transformation.attached_isSound _ _ _ hr').versors
    (Transformation.attached_isBound _ _ _ r) (Transformation.attached_isBound _ _ _ r.reverse)
    (hbuild.mp hok)
  rw [hstate, hstate']
  exact ⟨hbuild'.mpr hok', rfl, rfl, beam.profile.stiffness_mirror r.length, hreversal⟩

/-- A member that is built was brought up to date. -/
theorem build_isReady (h0 : 0 ≤ tol.parallel) (hok : (build tol nodes beam).result = .ok ()) :
    ∃ d, IsReady tol (build tol nodes beam).state.transformation beam.ends d := by
  obtain ⟨r, href⟩ := exists_referenceOf_of_build h0 hok
  have hr := Transformation.referenceOf_eq_ok h0 href
  obtain ⟨hbuild, hstate⟩ := build_eq h0 href
  obtain ⟨-, heq, hready⟩ := Transformation.update_of_ok h0
    (Transformation.attached_isSound _ _ _ hr).versors (Transformation.attached_isBound _ _ _ r)
    (hbuild.mp hok)
  rw [hstate, bound, heq]
  exact ⟨_, hready⟩

end Member

/-- The second list has the beams of the first in some order, each of them perhaps from
its other end. -/
def IsRearranged {α : Type} (beams beams' : List (Beam n α)) : Prop :=
  Multiset.Rel (fun b b' => b' = b ∨ b' = b.exchange) (beams : Multiset (Beam n α)) beams'

namespace Structure

/-- What a solver does to a structure between two evaluations of its response. -/
inductive Operation (n : Nat) (α : Type) where
  /-- Trial displacements are set. -/
  | setTrial (d : Vector α (6 * n))
  /-- The present state is accepted. -/
  | commit
  /-- The present state is given up. -/
  | revert

/-- The operation on a structure. -/
def Operation.perform {α : Type} [Scalar α] (tol : Tolerances α) (s : Structure n α) :
    Operation n α → Outcome α (Structure n α) Unit
  | setTrial d => s.setTrial tol d
  | commit => s.commit
  | revert => s.revert tol

/-- A structure after a sequence of operations, up to the first that fails. -/
def run {α : Type} [Scalar α] (tol : Tolerances α) (nodes : Vector (Node α) n)
    (beams : List (Beam n α)) (operations : List (Operation n α)) :
    Outcome α (Structure n α) Unit :=
  operations.foldl (fun o op => o.andThen fun s _ => op.perform tol s)
    (build tol nodes (beams.map .ok))

/-- The second structure has the nodes of the first, and the members of the first in some
order, each of them perhaps from its other end. -/
structure IsCopy (tol : Tolerances ℝ) (s s' : Structure n ℝ) : Prop where
  nodes : s'.nodes = s.nodes
  members : Multiset.Rel (Member.IsCopy tol) (s.members : Multiset (Member n ℝ)) s'.members

variable {s s' : Structure n ℝ} {nodes : Vector (Node ℝ) n} {beams beams' : List (Beam n ℝ)}

theorem build_isCopy (h0 : 0 ≤ tol.parallel) (hbeams : IsRearranged beams beams')
    (hok : (build tol nodes (beams.map .ok)).result = .ok ()) :
    (build tol nodes (beams'.map .ok)).result = .ok ()
      ∧ IsCopy tol (build tol nodes (beams.map .ok)).state
        (build tol nodes (beams'.map .ok)).state := by
  have hall := buildMembers_eq_ok_iff.mp hok
  obtain ⟨hall', hmembers⟩ := rel_map_of_forall (p := Member.IsCopy tol)
    (Q := fun beam => (Member.build tol nodes beam).result = .ok ())
    (f := fun beam => (Member.build tol nodes beam).state)
    (g := fun beam => (Member.build tol nodes beam).state) hbeams hall (by
      rintro beam _ (rfl | rfl) hbeam
      · obtain ⟨d, hready⟩ := Member.build_isReady h0 hbeam
        exact ⟨hbeam, .inl ⟨rfl, _, d, hready⟩⟩
      · obtain ⟨hbeam', hexchanged⟩ := Member.build_exchange h0 hbeam
        exact ⟨hbeam', .inr hexchanged⟩)
  refine ⟨buildMembers_eq_ok_iff.mpr hall', rfl, ?_⟩
  rw [← buildMembers_state hall, ← buildMembers_state hall'] at hmembers
  exact hmembers

/-- **An even-handed operation** on both structures. -/
theorem IsCopy.onTransformations
    {f : Transformation (Fin n) ℝ → Outcome ℝ (Transformation (Fin n) ℝ) Unit}
    (hf : IsEvenhanded tol f) (h : IsCopy tol s s')
    (hok : (s.onTransformations f).result = .ok ()) : (s'.onTransformations f).result = .ok ()
      ∧ IsCopy tol (s.onTransformations f).state (s'.onTransformations f).state := by
  have hall := onTransformations_eq_ok_iff.mp hok
  have hstep (m m' : Member n ℝ) (hpartner : Member.IsCopy tol m m')
      (hm : (f m.transformation).result = .ok ()) := hpartner.within hf hm
  obtain ⟨hall', hmembers⟩ := rel_map_of_forall h.members hall hstep
  refine ⟨onTransformations_eq_ok_iff.mpr hall', ?_⟩
  rw [onTransformations_state hall, onTransformations_state hall']
  exact ⟨h.nodes, hmembers⟩

/-- **Every operation** that succeeds on a structure does so on the other one. -/
theorem IsCopy.perform (h0 : 0 ≤ tol.parallel) (h : IsCopy tol s s') (op : Operation n ℝ)
    (hok : (op.perform tol s).result = .ok ()) : (op.perform tol s').result = .ok ()
      ∧ IsCopy tol (op.perform tol s).state (op.perform tol s').state := by
  obtain ⟨nodes, members⟩ := s
  obtain ⟨nodes', members'⟩ := s'
  obtain rfl : nodes' = nodes := h.nodes
  cases op with
  | setTrial d =>
    exact IsCopy.onTransformations (Transformation.isEvenhanded_update h0 _) ⟨rfl, h.members⟩ hok
  | commit =>
    exact IsCopy.onTransformations Transformation.isEvenhanded_commit ⟨rfl, h.members⟩ hok
  | revert =>
    exact IsCopy.onTransformations (Transformation.isEvenhanded_revert h0 _) ⟨rfl, h.members⟩ hok

omit [SeriesAngle] in
theorem run_append {α : Type} [Scalar α] (tol : Tolerances α) (nodes : Vector (Node α) n)
    (beams : List (Beam n α)) (operations : List (Operation n α)) (op : Operation n α) :
    run tol nodes beams (operations ++ [op])
      = (run tol nodes beams operations).andThen fun s _ => op.perform tol s :=
  List.foldl_append ..

/-- **A run** that succeeds with the one structure does so with the other. -/
theorem run_isCopy (h0 : 0 ≤ tol.parallel) (hbeams : IsRearranged beams beams')
    (operations : List (Operation n ℝ)) (hok : (run tol nodes beams operations).result = .ok ()) :
    (run tol nodes beams' operations).result = .ok ()
      ∧ IsCopy tol (run tol nodes beams operations).state
        (run tol nodes beams' operations).state := by
  induction operations using List.reverseRecOn with
  | nil => exact build_isCopy h0 hbeams hok
  | append_singleton operations op ih =>
    rw [run_append] at hok
    rw [run_append, run_append]
    obtain ⟨_, hfirst, hop⟩ := Outcome.andThen_eq_ok_iff.mp hok
    obtain ⟨hfirst', hcopy⟩ := ih hfirst
    obtain ⟨hop', hcopy'⟩ := hcopy.perform h0 op hop
    rw [Outcome.andThen_state hfirst, Outcome.andThen_state hfirst']
    exact ⟨Outcome.andThen_eq_ok_iff.mpr ⟨(), hfirst', hop'⟩, hcopy'⟩

/-- **Neither the order of the beams nor that of their ends matters.** Let two structures
have the same nodes and the same beams, in any order and each of them from either end. A
sequence of operations that succeeds with the one succeeds with the other, and if all
local rotations are then below half a turn, both answer with the same tangent and the same
resisting forces. -/
theorem response_exchange (h0 : 0 ≤ tol.parallel) (hangle : 0 ≤ SeriesAngle.angle)
    (hseries : SeriesAngle.angle < Real.pi) (nodes : Vector (Node ℝ) n)
    {beams beams' : List (Beam n ℝ)} (hbeams : IsRearranged beams beams')
    (operations : List (Operation n ℝ)) (hok : (run tol nodes beams operations).result = .ok ())
    (hlt : ∀ m ∈ (run tol nodes beams operations).state.members, m.IsBelowHalfTurn) :
    (run tol nodes beams' operations).result = .ok ()
      ∧ ∃ R, ((run tol nodes beams operations).state.response tol).result = .ok R
        ∧ ((run tol nodes beams' operations).state.response tol).result = .ok R := by
  obtain ⟨hok', hcopy⟩ := run_isCopy h0 hbeams operations hok
  set s := (run tol nodes beams operations).state
  set s' := (run tol nodes beams' operations).state
  have hcurrent : (∀ m ∈ s.members, ∃ d, m.transformation.IsCurrent tol d)
      ∧ ∀ m' ∈ s'.members, ∃ d, m'.transformation.IsCurrent tol d := by
    refine ⟨fun m hm => ?_, fun m' hm' => ?_⟩
    · obtain ⟨m', -, hpartner⟩ := Multiset.exists_mem_of_rel_of_mem hcopy.members hm
      exact hpartner.isCurrent.1
    · obtain ⟨m, -, hpartner⟩ :=
        Multiset.exists_mem_of_rel_of_mem (Multiset.rel_flip.mpr hcopy.members) hm'
      exact hpartner.isCurrent.2
  obtain ⟨R, hR, hforce, htangent⟩ := response_eq hcurrent.1
  obtain ⟨R', hR', hforce', htangent'⟩ := response_eq hcurrent.2
  -- partners have equal summands, so the summands of one list are those of the other, reordered
  have hsum {g : Member n ℝ → ℝ} (hg : ∀ m m', m.IsBelowHalfTurn → Member.IsCopy tol m m' →
      g m' = g m) : (s'.members.map g).sum = (s.members.map g).sum := by
    have hrel : Multiset.Rel (fun x y => y = x) (s.members.map g : Multiset ℝ) (s'.members.map g) :=
      (rel_map_of_forall (Q := fun _ => True) hcopy.members hlt fun m m' hpartner hm =>
        ⟨trivial, hg m m' hm hpartner⟩).2
    exact (Multiset.coe_eq_coe.mp (Multiset.rel_flip_eq.mp hrel)).sum_eq.symm
  refine ⟨hok', R, hR, ?_⟩
  rw [hR']
  refine congrArg Except.ok (response_ext (fun k => ?_) fun k l => ?_)
  · rw [hforce, hforce']
    exact hsum fun m m' hm hpartner => hpartner.forceAt_eq h0 hangle hseries hm k
  · rw [htangent, htangent']
    exact hsum fun m m' hm hpartner => hpartner.stiffnessAt_eq h0 hangle hseries hm k l

/-! ## Twisted beams -/

section Twisted

open Transformation (twisted)

/-- Two nodes a unit apart along the first axis. -/
noncomputable def pairNodes : Vector (Node ℝ) 2 :=
  #v[.ofPosition .null 0, .ofPosition .null ⟨1, 0, 0⟩]

/-- A straight beam between them. -/
def straightBeam (profile : Section ℝ) : Beam 2 ℝ :=
  ⟨.null, ⟨⟨0, Nat.zero_lt_two⟩, ⟨1, Nat.one_lt_two⟩⟩, profile, ⟨0, 0, 1⟩⟩

/-- Opposite unit turns of both nodes about the first axis. -/
noncomputable def pairTwist : Vector ℝ (6 * 2) := #v[0, 0, 0, 1, 0, 0, 0, 0, 0, -1, 0, 0]

/-- A straight beam is built, and follows the twist of its nodes. -/
theorem straightBeam_twisted (hangle : 0 ≤ SeriesAngle.angle) (hseries : SeriesAngle.angle < 1)
    (h0 : 0 ≤ tol.parallel) (hcos : tol.parallel < Real.cos 1) (profile : Section ℝ) :
    let o := Member.build tol pairNodes (straightBeam profile)
    o.result = .ok () ∧ ∃ t, o.state.transformation.update tol (displacementAt pairTwist) = .ok t ()
      ∧ t.deformation = twisted 1 := by
  intro o
  obtain ⟨r, href, hoffset, haxis⟩ :=
    Session.straight_reference h0 (hcos.trans_le (Real.cos_le_one 1))
  have hpositions : Transformation.referenceOf tol (Member.configuration (straightBeam profile))
      (Member.positions pairNodes (straightBeam profile)) = .ok r := href
  have hr := Transformation.referenceOf_eq_ok h0 href
  obtain ⟨hbuild, hstate⟩ := Member.build_eq h0 hpositions
  set t := Member.bound pairNodes (straightBeam profile) r
  have hsound : t.IsSound tol ⟨0, ⟨1, 0, 0⟩⟩ := Transformation.attached_isSound _ _ _ hr
  have hbound : t.IsBound ⟨0, 1⟩ := Transformation.attached_isBound _ _ _ r
  have hrot : t.nodalRotation = .both r.axes := Transformation.attached_nodalRotation _ _ _ hr
  have hinitial : t.initial = .both 0 := Session.attached_initial _ _ _ r
  have hzero :
      t.displacement ((⟨0, 1⟩ : Ends (Fin 2)).map fun k => (pairNodes.get k).trial) = 0 := by
    change (.both 0 : Ends (Displacement ℝ)) - t.initial = 0
    rw [hinitial, sub_self]
  obtain ⟨hmoved, heq⟩ := Transformation.update_undeformed_eq hsound hbound hrot rfl hzero
  have hok := hbuild.mpr (congrArg Outcome.result heq)
  rw [heq] at hstate
  set u := (t.moved (.both 0)).evaluated 0 tol
  have hupdate := Transformation.update_sound h0 hsound hbound fun k => (pairNodes.get k).trial
  rw [heq] at hupdate
  have haxes (b : ℝ) : r.axes.apply ⟨b, 0, 0⟩ = ⟨b, 0, 0⟩ := by
    rw [Mat3.apply_columns, haxis]
    ext <;> simp
  have htwist : u.displacement ((⟨0, 1⟩ : Ends (Fin 2)).map (displacementAt pairTwist))
      = Transformation.twist r.axes 1 := by
    change (twisted 1 : Ends (Displacement ℝ)) - t.initial = _
    rw [hinitial, Transformation.twist, haxes, haxes]
    exact sub_zero _
  obtain ⟨t', heq', -, -, hdeformation⟩ := Transformation.update_twisted hupdate.1
    hupdate.2.1 hoffset hmoved rfl hangle hseries (by linarith [Real.two_le_pi]) h0 hcos htwist
  change o.state = _ at hstate
  rw [hstate]
  exact ⟨hok, t', heq', hdeformation⟩

/-- **Any number of straight beams** between the two nodes follow the twist. -/
theorem run_twisted (hangle : 0 ≤ SeriesAngle.angle) (hseries : SeriesAngle.angle < 1)
    (h0 : 0 ≤ tol.parallel) (hcos : tol.parallel < Real.cos 1) (profiles : List (Section ℝ)) :
    let o := run tol pairNodes (profiles.map straightBeam) [.setTrial pairTwist]
    o.result = .ok () ∧ ∀ m ∈ o.state.members, m.transformation.deformation = twisted 1 := by
  intro o
  have hbeam := straightBeam_twisted hangle hseries h0 hcos
  have hbuilt : ∀ beam ∈ profiles.map straightBeam,
      (Member.build tol pairNodes beam).result = .ok () := by
    intro beam hmem
    obtain ⟨profile, -, rfl⟩ := List.mem_map.mp hmem
    exact (hbeam profile).1
  set first := build tol pairNodes ((profiles.map straightBeam).map .ok)
  have hfirst : first.result = .ok () := buildMembers_eq_ok_iff.mpr hbuilt
  have hmembers : ∀ m ∈ first.state.members, ∃ t,
      m.transformation.update tol (displacementAt pairTwist) = .ok t ()
        ∧ t.deformation = twisted 1 := by
    intro m hm
    change m ∈ (buildMembers tol pairNodes ((profiles.map straightBeam).map .ok)).state at hm
    rw [buildMembers_state hbuilt, List.map_map] at hm
    obtain ⟨profile, -, rfl⟩ := List.mem_map.mp hm
    exact (hbeam profile).2
  have hfollow : ∀ m ∈ first.state.members,
      (m.transformation.update tol (displacementAt pairTwist)).result = .ok () := by
    intro m hm
    obtain ⟨t, heq, -⟩ := hmembers m hm
    exact congrArg Outcome.result heq
  obtain ⟨hset, hmoved⟩ := setTrial_of_ok hfollow
  have hrun : (first.andThen fun s _ => s.setTrial tol pairTwist).result = .ok () :=
    Outcome.andThen_eq_ok_iff.mpr ⟨(), hfirst, hset⟩
  have hstate : o.state = (first.state.setTrial tol pairTwist).state :=
    Outcome.andThen_state hfirst fun s _ => s.setTrial tol pairTwist
  refine ⟨hrun, fun m hm => ?_⟩
  rw [hstate, hmoved] at hm
  obtain ⟨m₀, hm₀, rfl⟩ := List.mem_map.mp hm
  obtain ⟨t, heq, hdeformation⟩ := hmembers m₀ hm₀
  simp only [Member.within, heq]
  exact hdeformation

omit [SeriesAngle] in
/-- Two beams that were twisted, and the same two in the other order, one of them from its
other end. -/
theorem response_exchange_twisted :
    letI : SeriesAngle := .exact
    let thick : Section ℝ := ⟨1, 1, 1, 1, 1, 1⟩
    let thin : Section ℝ := ⟨1, 1, 1 / 2, 1 / 4, 1 / 4, 1 / 2⟩
    let o := run .standard pairNodes [straightBeam thick, straightBeam thin] [.setTrial pairTwist]
    let o' := run .standard pairNodes [(straightBeam thin).exchange, straightBeam thick]
      [.setTrial pairTwist]
    o.result = .ok () ∧ o'.result = .ok ()
      ∧ ∃ R, (o.state.response .standard).result = .ok R
        ∧ (o'.state.response .standard).result = .ok R := by
  let _ : SeriesAngle := .exact
  intro thick thin o o'
  have h0 := Tolerances.standard_admissible_exact.parallel_nonneg
  obtain ⟨hok, hmembers⟩ :=
    run_twisted le_rfl one_pos h0 Tolerances.standard_parallel_lt_cos [thick, thin]
  have hbeams : IsRearranged [straightBeam thick, straightBeam thin]
      [(straightBeam thin).exchange, straightBeam thick] := by
    have hswap : ([(straightBeam thin).exchange, straightBeam thick] : Multiset (Beam 2 ℝ))
        = [straightBeam thick, (straightBeam thin).exchange] :=
      Multiset.coe_eq_coe.mpr (.swap _ _ _)
    rw [IsRearranged, hswap]
    exact .cons (.inl rfl) (.cons (.inr rfl) .zero)
  have hlt : ∀ m ∈ o.state.members, m.IsBelowHalfTurn := by
    intro m hm
    have hnorm {v : Vec3 ℝ} (hv : v.dot v = 1) : v.norm < Real.pi := by
      rw [Vec3.norm_eq, hv, Real.sqrt_one]
      linarith [Real.two_le_pi]
    rw [Member.IsBelowHalfTurn, hmembers m hm]
    exact ⟨hnorm (by simp [twisted, Vec3.dot_eq]), hnorm (by simp [twisted, Vec3.dot_eq])⟩
  obtain ⟨hok', R, hR, hR'⟩ :=
    response_exchange h0 le_rfl Real.pi_pos pairNodes hbeams [.setTrial pairTwist] hok hlt
  exact ⟨hok, hok', R, hR, hR'⟩

end Twisted

end Structure

end Corotation
