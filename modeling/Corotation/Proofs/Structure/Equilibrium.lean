import Mathlib.Algebra.BigOperators.Pi
import Corotation.Proofs.Structure.Currency
import Corotation.Proofs.Transformation.Equilibrium
/-!
# Equilibrium of a structure

The nodal forces of one member balance between its displaced nodes. A structure adds up
what its members bring, each into the six entries of its two nodes
(`displacementAt_response`), and a member that is up to date has its nodes where the
structure has them (`IsRooted.isBalanced`): what it took away from every report was
what they reported when the structure was built. So all that is added up balances, and the
resisting forces of the whole structure do (`response_balanced`), for whatever members
meet at a node.
-/

namespace Corotation

variable [SeriesAngle] {n : Nat} {tol : Tolerances ℝ}

/-! ## Forces at the nodes of a system -/

/-- The moment that a force with a moment has about the origin. -/
noncomputable def momentAt (x : Vec3 ℝ) (f : Displacement ℝ) : Vec3 ℝ := f.rot + x.cross f.lin

theorem momentAt_zero (x : Vec3 ℝ) : momentAt x 0 = 0 := by
  rw [momentAt, Screw.zero_lin, Screw.zero_rot, Vec3.cross_zero, add_zero]

theorem momentAt_add (x : Vec3 ℝ) (f g : Displacement ℝ) :
    momentAt x (f + g) = momentAt x f + momentAt x g := by
  simp only [momentAt, Screw.add_lin, Screw.add_rot, Vec3.cross_add]
  exact add_add_add_comm _ _ _ _

/-- Forces and moments at nodes in the positions `x` that have no resultant and no
moment. -/
structure IsEquilibrium (x : Fin n → Vec3 ℝ) (f : Fin n → Displacement ℝ) : Prop where
  force : ∑ k, (f k).lin = 0
  moment : ∑ k, momentAt (x k) (f k) = 0

namespace IsEquilibrium

variable {x : Fin n → Vec3 ℝ} {f g : Fin n → Displacement ℝ}

theorem zero : IsEquilibrium x 0 :=
  ⟨Finset.sum_eq_zero fun _ _ => rfl, Finset.sum_eq_zero fun k _ => momentAt_zero (x k)⟩

theorem add (hf : IsEquilibrium x f) (hg : IsEquilibrium x g) : IsEquilibrium x (f + g) where
  force := by
    simp only [Pi.add_apply, Screw.add_lin, Finset.sum_add_distrib, hf.force, hg.force, add_zero]
  moment := by
    simp only [Pi.add_apply, momentAt_add, Finset.sum_add_distrib, hf.moment, hg.moment, add_zero]

/-- **A sum of forces in equilibrium** is in equilibrium. -/
theorem list_sum {fs : List (Fin n → Displacement ℝ)} (h : ∀ f ∈ fs, IsEquilibrium x f) :
    IsEquilibrium x fs.sum := by
  induction fs with
  | nil => exact zero
  | cons f fs ih =>
    obtain ⟨hf, hfs⟩ := List.forall_mem_cons.mp h
    rw [List.sum_cons]
    exact hf.add (ih hfs)

end IsEquilibrium

/-- What a member brings to the nodes: its end forces at its ends. -/
noncomputable def atEnds (ends : Ends (Fin n)) (p : ElementVector ℝ) : Fin n → Displacement ℝ :=
  Pi.single ends.i p.i + Pi.single ends.j p.j

/-- Sums over all nodes are sums over the ends. -/
theorem sum_atEnds {r : Fin n → Displacement ℝ → Vec3 ℝ} (hzero : ∀ k, r k 0 = 0)
    (hadd : ∀ k f g, r k (f + g) = r k f + r k g) (ends : Ends (Fin n)) (p : ElementVector ℝ) :
    ∑ k, r k (atEnds ends p k) = r ends.i p.i + r ends.j p.j := by
  simp only [atEnds, Pi.add_apply, hadd, Finset.sum_add_distrib, Pi.apply_single r hzero,
    Finset.sum_pi_single', Finset.mem_univ, if_true]

/-- **Balanced end forces** are in equilibrium, also where both ends are at one node. -/
theorem isEquilibrium_atEnds {x : Fin n → Vec3 ℝ} {ends : Ends (Fin n)} {p : ElementVector ℝ}
    (h : p.IsBalanced (ends.map x)) : IsEquilibrium x (atEnds ends p) where
  force :=
    (sum_atEnds (r := fun _ f => f.lin) (fun _ => rfl) (fun _ _ _ => rfl) ends p).trans h.force
  moment := by
    have hlin : p.i.lin = -p.j.lin := eq_neg_of_add_eq_zero_left h.force
    calc ∑ k, momentAt (x k) (atEnds ends p k)
      _ = momentAt (x ends.i) p.i + momentAt (x ends.j) p.j :=
        sum_atEnds (fun k => momentAt_zero (x k)) (fun k => momentAt_add (x k)) ends p
      _ = p.i.rot + p.j.rot + (x ends.j - x ends.i).cross p.j.lin := by
        rw [momentAt, momentAt, hlin, Vec3.cross_neg, Vec3.sub_cross]
        abel
      _ = 0 := h.moment

/-! ## The entries of a node -/

/-- What is found at the nodes where a system has the entries `g`. -/
def atNodes (g : Fin (6 * n) → ℝ) : Fin n → Displacement ℝ :=
  Structure.displacementAt (Vector.ofFn g)

omit [SeriesAngle] in
/-- Entries are found at the node to which they belong. -/
theorem atNodes_eq {g : Fin (6 * n) → ℝ} {k : Fin n} {f : Displacement ℝ}
    (h : ∀ q : Fin (6 * n), ∀ c : Fin 6, q.val = 6 * k.val + c.val →
      g q = ![f.lin.x, f.lin.y, f.lin.z, f.rot.x, f.rot.y, f.rot.z] c) : atNodes g k = f := by
  refine Screw.ext (Vec3.ext ?_ ?_ ?_) (Vec3.ext ?_ ?_ ?_)
  · exact (Vector.getElem_ofFn _).trans (h _ 0 rfl)
  · exact (Vector.getElem_ofFn _).trans (h _ 1 rfl)
  · exact (Vector.getElem_ofFn _).trans (h _ 2 rfl)
  · exact (Vector.getElem_ofFn _).trans (h _ 3 rfl)
  · exact (Vector.getElem_ofFn _).trans (h _ 4 rfl)
  · exact (Vector.getElem_ofFn _).trans (h _ 5 rfl)

theorem atNodes_add (g g' : Fin (6 * n) → ℝ) :
    atNodes (fun q => g q + g' q) = atNodes g + atNodes g' := by
  funext k
  rw [Pi.add_apply]
  simp only [atNodes, Structure.displacementAt, Vector.getElem_ofFn]
  rfl

theorem atNodes_list_sum {γ : Type} (g : γ → Fin (6 * n) → ℝ) (cs : List γ) :
    atNodes (fun q => (cs.map fun c => g c q).sum) = (cs.map fun c => atNodes (g c)).sum := by
  induction cs with
  | nil =>
    funext k
    simp only [atNodes, Structure.displacementAt, Vector.getElem_ofFn, List.map_nil, List.sum_nil]
    rfl
  | cons c cs ih =>
    simp only [List.map_cons, List.sum_cons]
    rw [atNodes_add, ih]

omit [SeriesAngle] in
/-- Six entries deposited in the components of a node. -/
theorem deposit_slots (i : Fin n) (entries : Fin 6 → ℝ) {q : Fin (6 * n)} {k : Fin n} {c : Fin 6}
    (hq : q.val = 6 * k.val + c.val) :
    deposit (Structure.slots i) ((List.finRange 6).map entries) q
      = if k = i then entries c else 0 := by
  have hsum : deposit (Structure.slots i) ((List.finRange 6).map entries) q
      = ∑ b, if b = c ∧ k = i then entries b else 0 := by
    unfold deposit Structure.slots
    rw [List.zip_map', List.map_map, Fin.sum_univ_def]
    refine congrArg List.sum (List.map_congr_left fun b _ => if_congr ?_ rfl rfl)
    -- quotient and remainder by six: a component belongs to one node, and to one entry of it
    simp only [Fin.ext_iff, hq]
    omega
  rw [hsum]
  by_cases hk : k = i
  · simp [hk]
  · simp [hk]

/-- **What is deposited in the components of a node** is found at that node. -/
theorem atNodes_deposit (i : Fin n) (f : Displacement ℝ) :
    atNodes (deposit (Structure.slots i) (f.lin.toList ++ f.rot.toList)) = Pi.single i f := by
  funext k
  refine atNodes_eq fun q c hq => ?_
  refine (deposit_slots i ![f.lin.x, f.lin.y, f.lin.z, f.rot.x, f.rot.y, f.rot.z] hq).trans ?_
  rw [Pi.single_apply]
  split
  · rfl
  · fin_cases c <;> rfl

open Transformation (IsBound IsCurrent IsSound displaced)

/-- **The forces of a member** are found at its ends. -/
theorem atNodes_forceAt (tol : Tolerances ℝ) (m : Member n ℝ) :
    atNodes (Structure.forceAt tol m)
      = atEnds m.beam.ends (m.transformation.nodalForce tol m.localForce) := by
  set p := m.transformation.nodalForce tol m.localForce
  have hsplit (q : Fin (6 * n)) : Structure.forceAt tol m q
      = deposit (Structure.slots m.beam.ends.i) (p.i.lin.toList ++ p.i.rot.toList) q
        + deposit (Structure.slots m.beam.ends.j) (p.j.lin.toList ++ p.j.rot.toList) q := by
    refine Eq.trans ?_ (deposit_append ?_ _ _ q)
    · rfl
    · simp [Structure.slots, Vec3.toList]
  rw [atEnds, ← atNodes_deposit, ← atNodes_deposit, ← atNodes_add, funext hsplit]

namespace Structure

variable {s : Structure n ℝ}

/-- **The resisting forces at the nodes** are the sum of what the members bring. -/
theorem displacementAt_response (h : ∀ m ∈ s.members, ∃ d, m.transformation.IsCurrent tol d)
    {R : Response (6 * n) ℝ} (hR : (s.response tol).result = .ok R) :
    displacementAt R.force = (s.members.map fun m =>
      atEnds m.beam.ends (m.transformation.nodalForce tol m.localForce)).sum := by
  obtain ⟨R', hR', hforce, -⟩ := response_eq h
  obtain rfl : R' = R := Except.ok.inj (hR'.symm.trans hR)
  calc displacementAt R'.force
    _ = atNodes fun q => (s.members.map fun m => forceAt tol m q).sum := by
      rw [← funext hforce]
      have hget : Vector.ofFn R'.force.get = R'.force :=
        Vector.ext fun q hq => Vector.getElem_ofFn hq
      rw [atNodes, hget]
    _ = (s.members.map fun m => atNodes (forceAt tol m)).sum := atNodes_list_sum _ _
    _ = _ := by simp only [atNodes_forceAt]

end Structure

/-! ## Where the nodes of a member are -/

namespace Transformation

variable {ν : Type}

/-- An operation that keeps a transformation sound, and keeps its nodes and what was
captured. -/
def IsSteady (tol : Tolerances ℝ) (f : Transformation ν ℝ → Outcome ℝ (Transformation ν ℝ) Unit) :
    Prop :=
  ∀ t position nodes, IsSound tol t position → IsBound t nodes →
    IsSound tol (f t).state position ∧ IsBound (f t).state nodes ∧ (f t).state.initial = t.initial

theorem isSteady_update (h0 : 0 ≤ tol.parallel) (trial : ν → Displacement ℝ) :
    IsSteady tol fun t => t.update tol trial := by
  intro t position nodes hsound hbound
  obtain ⟨hsound', hbound', -⟩ := update_sound h0 hsound hbound trial
  exact ⟨hsound', hbound', (t.update_keeps tol trial).initial⟩

theorem isSteady_commit : IsSteady tol fun t : Transformation ν ℝ => t.commit := by
  intro t position nodes hsound hbound
  obtain ⟨heq, hsound', hbound', -⟩ := commit_sound hsound hbound
  simp only [heq]
  exact ⟨hsound', hbound', rfl⟩

theorem isSteady_revert (h0 : 0 ≤ tol.parallel) (trial : ν → Displacement ℝ) :
    IsSteady tol fun t => t.revert tol trial := by
  intro t position nodes hsound hbound
  have hkeeps := t.revert_keeps tol trial
  obtain ⟨hsound', -⟩ := revert_sound h0 hsound hbound trial
  exact ⟨hsound', ⟨hkeeps.stage hbound.stage, hkeeps.nodes.trans hbound.nodes⟩, hkeeps.initial⟩

end Transformation

open Transformation (IsSteady)

variable {origin : Vector (Node ℝ) n}

namespace Member

variable {m : Member n ℝ}

/-- A member that was built on the nodes `origin`: its reference is between their
positions, and what it takes away from every report is what they reported. -/
structure IsRooted (tol : Tolerances ℝ) (origin : Vector (Node ℝ) n) (m : Member n ℝ) : Prop where
  sound : m.transformation.IsSound tol (positions origin m.beam)
  bound : m.transformation.IsBound m.beam.ends
  initial : m.transformation.initial = m.beam.ends.map fun k => (origin.get k).trial

theorem build_isRooted (h0 : 0 ≤ tol.parallel) {beam : Beam n ℝ}
    (h : (build tol origin beam).result = .ok ()) :
    (build tol origin beam).state.IsRooted tol origin := by
  obtain ⟨r, href⟩ := exists_referenceOf_of_build h0 h
  obtain ⟨-, hstate⟩ := build_eq h0 href
  have hsound := Transformation.attached_isSound (.ofConfiguration (configuration beam)) beam.ends
    (beam.ends.map fun k => (origin.get k).trial) (Transformation.referenceOf_eq_ok h0 href)
  have hbound := Transformation.attached_isBound (.ofConfiguration (configuration beam)) beam.ends
    (beam.ends.map fun k => (origin.get k).trial) r
  obtain ⟨hsound', hbound', hinitial⟩ := Transformation.isSteady_update h0
    (fun k => (origin.get k).trial) _ _ _ hsound hbound
  rw [hstate]
  exact ⟨hsound', hbound', hinitial.trans (Session.attached_initial _ _ _ _)⟩

theorem IsRooted.within {f : Transformation (Fin n) ℝ → Outcome ℝ (Transformation (Fin n) ℝ) Unit}
    (hf : IsSteady tol f) (h : m.IsRooted tol origin) : (m.within f).state.IsRooted tol origin := by
  obtain ⟨hsound, hbound, hinitial⟩ := hf _ _ _ h.sound h.bound
  exact ⟨hsound, hbound, hinitial.trans h.initial⟩

end Member

namespace Structure

variable {s : Structure n ℝ}

/-- A structure that was built on the nodes `origin`. -/
structure IsRooted (tol : Tolerances ℝ) (origin : Vector (Node ℝ) n) (s : Structure n ℝ) :
    Prop where
  position : ∀ k, (s.nodes.get k).position = (origin.get k).position
  members : ∀ m ∈ s.members, m.IsRooted tol origin

theorem build_isRooted (h0 : 0 ≤ tol.parallel) {beams : List (Except (Failure ℝ) (Beam n ℝ))}
    (h : (build tol origin beams).result = .ok ()) :
    (build tol origin beams).state.IsRooted tol origin :=
  ⟨fun _ => rfl, forall_of_build (fun _ => Member.build_isRooted h0) h⟩

/-- **Every operation** keeps a structure on the nodes on which it was built. -/
theorem perform_isRooted (h0 : 0 ≤ tol.parallel) (h : s.IsRooted tol origin) (op : Operation n ℝ) :
    (op.perform tol s).state.IsRooted tol origin := by
  have hmembers {f : Transformation (Fin n) ℝ → Outcome ℝ (Transformation (Fin n) ℝ) Unit}
      (hf : IsSteady tol f) : ∀ m ∈ (Outcome.forEach (Member.within f) s.members).state,
        m.IsRooted tol origin :=
    Outcome.forall_forEach (fun m hm => hm.within hf) h.members
  have hmap (f : Node ℝ → Node ℝ) (hf : ∀ node, (f node).position = node.position) (k : Fin n) :
      ((s.nodes.map f).get k).position = (origin.get k).position := by
    have hnode : (s.nodes.map f).get k = f (s.nodes.get k) := Vector.getElem_map ..
    rw [hnode, hf, h.position k]
  cases op with
  | setTrial d =>
    refine ⟨fun k => ?_, hmembers (Transformation.isSteady_update h0 _)⟩
    have hnode : (s.setTrial tol d).state.nodes.get k
        = (s.nodes.get k).setTrial (displacementAt d k) := Vector.getElem_ofFn _
    exact (congrArg Node.position hnode).trans (h.position k)
  | commit => exact ⟨hmap _ fun _ => rfl, hmembers Transformation.isSteady_commit⟩
  | revert => exact ⟨hmap _ fun _ => rfl, hmembers (Transformation.isSteady_revert h0 _)⟩

theorem after_isRooted (h0 : 0 ≤ tol.parallel) (operations : List (Operation n ℝ))
    (h : s.IsRooted tol origin) : (after tol s operations).IsRooted tol origin := by
  induction operations generalizing s with
  | nil => exact h
  | cons op operations ih => exact ih (perform_isRooted h0 h op)

/-! ## The whole structure -/

/-- Where the nodes of a structure are, that was built on the nodes `origin`: they have
moved by what they report, less what they reported then. -/
noncomputable def deformedPosition (origin : Vector (Node ℝ) n) (s : Structure n ℝ) (k : Fin n) :
    Vec3 ℝ := (s.nodes.get k).position + ((s.trial k).lin - (origin.get k).trial.lin)

/-- **A member that is up to date** balances where the structure has its nodes. -/
theorem IsRooted.isBalanced (h0 : 0 ≤ tol.parallel) (h : s.IsRooted tol origin) {m : Member n ℝ}
    (hm : m ∈ s.members)
    (hcurrent : IsCurrent tol m.transformation
      (m.transformation.displacement (m.beam.ends.map s.trial))) (p : ElementVector ℝ) :
    (m.transformation.nodalForce tol p).IsBalanced
      (m.beam.ends.map (s.deformedPosition origin)) := by
  have hmember := h.members m hm
  have hwhere : displaced (Member.positions origin m.beam)
      (m.transformation.displacement (m.beam.ends.map s.trial))
        = m.beam.ends.map (deformedPosition origin s) := by
    -- what the member has captured is what its nodes reported at construction
    rw [Transformation.displacement, hmember.initial]
    refine Ends.ext ?_ ?_
    · exact congrArg (· + _) (h.position m.beam.ends.i).symm
    · exact congrArg (· + _) (h.position m.beam.ends.j).symm
  rw [← hwhere]
  exact hcurrent.isBalanced h0 hmember.sound p

/-- **The resisting forces of a structure balance.** After construction and any sequence of
operations, any of which may fail at any member: if the response is answered, then its
forces have no resultant, and with the moments no moment about the origin, where the nodes
are at the positions of their trial displacements. This holds for any members between any
nodes, and for rotations of any size. -/
theorem response_balanced (h0 : 0 ≤ tol.parallel) (nodes : Vector (Node ℝ) n)
    (beams : List (Except (Failure ℝ) (Beam n ℝ)))
    (hbuild : (build tol nodes beams).result = .ok ()) (operations : List (Operation n ℝ))
    {R : Response (6 * n) ℝ}
    (hR : ((after tol (build tol nodes beams).state operations).response tol).result = .ok R) :
    let s := after tol (build tol nodes beams).state operations
    let x := s.deformedPosition nodes
    let f := displacementAt R.force
    ∑ k, (f k).lin = 0 ∧ ∑ k, ((f k).rot + (x k).cross (f k).lin) = 0 := by
  intro s x f
  have hrooted : s.IsRooted tol nodes := after_isRooted h0 operations (build_isRooted h0 hbuild)
  have hupToDate := (after_isJudged operations (build_isJudged hbuild)).of_response hR
  have hcurrent (m : Member n ℝ) (hm : m ∈ s.members) : IsCurrent tol m.transformation
      (m.transformation.displacement (m.beam.ends.map s.trial)) :=
    (hupToDate m hm).evaluation.isCurrent h0 (hrooted.members m hm).sound.versors
  have hsum : f = (s.members.map fun m =>
      atEnds m.beam.ends (m.transformation.nodalForce tol m.localForce)).sum :=
    displacementAt_response (fun m hm => ⟨_, hcurrent m hm⟩) hR
  have hequilibrium : IsEquilibrium x f := by
    rw [hsum]
    refine IsEquilibrium.list_sum (List.forall_mem_map.mpr fun m hm => ?_)
    exact isEquilibrium_atEnds (hrooted.isBalanced h0 hm (hcurrent m hm) m.localForce)
  exact ⟨hequilibrium.force, hequilibrium.moment⟩

omit [SeriesAngle] in
/-- Two beams that were twisted. -/
theorem response_balanced_twisted :
    letI : SeriesAngle := .exact
    let thick : Section ℝ := ⟨1, 1, 1, 1, 1, 1⟩
    let thin : Section ℝ := ⟨1, 1, 1 / 2, 1 / 4, 1 / 4, 1 / 2⟩
    let s := after .standard (build .standard pairNodes
      [.ok (straightBeam thick), .ok (straightBeam thin)]).state [.setTrial pairTwist]
    let x := s.deformedPosition pairNodes
    ∃ R, (s.response .standard).result = .ok R ∧ ∑ k, (displacementAt R.force k).lin = 0
      ∧ ∑ k, ((displacementAt R.force k).rot + (x k).cross (displacementAt R.force k).lin) = 0 := by
  let _ : SeriesAngle := .exact
  intro thick thin s x
  have h0 := Tolerances.standard_admissible_exact.parallel_nonneg
  obtain ⟨hbuild, hlatest⟩ :=
    verdict_twisted le_rfl one_pos h0 Tolerances.standard_parallel_lt_cos [thick, thin]
  have hjudged := after_isJudged [.setTrial pairTwist] (build_isJudged hbuild)
  rw [hlatest] at hjudged
  obtain ⟨R, hR⟩ := hjudged.response_ok
  exact ⟨R, hR, response_balanced h0 pairNodes _ hbuild [.setTrial pairTwist] hR⟩

end Structure

end Corotation
