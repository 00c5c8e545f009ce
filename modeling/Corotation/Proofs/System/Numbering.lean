import Mathlib.Data.List.Nodup
import Mathlib.Data.Set.Function
import Mathlib.Tactic.Ring
import Corotation.System.Layout
/-!
# What the numbers of a layout name

Where a node has at least one component, a number names one component of one node: quotient and
remainder by the count of a node are the way back (`index_bijOn`). So the blocks of distinct nodes
share no number, and the map of an element has none twice (`elementMap_nodup`).

A span is a stretch of numbers, and knows nothing of blocks. The rotations of a node are handed out
only where the block holds them. The linear components are handed out in any case: in a block of
fewer than three they run on into the next node (`linear_subset_iff`).
-/

namespace Corotation

/-- The numbers that a span names. -/
def Span.numbers (s : Span) : Set Int := {i | s.start ≤ i ∧ i < s.stop}

theorem Span.mem_numbers {s : Span} {i : Int} : i ∈ s.numbers ↔ s.start ≤ i ∧ i < s.stop :=
  Iff.rfl

namespace Layout

variable {l : Layout} {node slot i : Int}

/-! ## The block of a node -/

/-- The block of a node runs from its first component to that of the next. -/
theorem mem_nodeIndices :
    i ∈ l.nodeIndices node ↔ l.index node 0 ≤ i ∧ i < l.index node l.perNode := by
  simp only [nodeIndices, index, List.mem_map, List.mem_range]
  constructor
  · rintro ⟨k, hk, rfl⟩
    omega
  · rintro ⟨hfirst, hlast⟩
    exact ⟨(i - l.perNode * node).toNat, by omega, by omega⟩

/-- A component is in the block of its node if it is one that a node has. -/
theorem index_mem_nodeIndices :
    l.index node slot ∈ l.nodeIndices node ↔ 0 ≤ slot ∧ slot < l.perNode := by
  rw [mem_nodeIndices]
  simp only [index]
  omega

theorem nodeIndices_nodup : (l.nodeIndices node).Nodup := by
  refine List.nodup_range.map fun k k' heq => ?_
  simp only [index] at heq
  omega

theorem length_nodeIndices : (l.nodeIndices node).length = l.perNode.toNat := by
  rw [nodeIndices, List.length_map, List.length_range]

/-- The block of the next node begins where the block ends. -/
theorem index_next : l.index (node + 1) 0 = l.index node l.perNode := by
  simp only [index]
  ring

section Division

variable (hl : 1 ≤ l.perNode)

include hl

/-- The node of a component is the quotient of its number, and its slot the remainder. -/
theorem index_eq_iff :
    (l.index node slot = i ∧ 0 ≤ slot ∧ slot < l.perNode)
      ↔ i / l.perNode = node ∧ i % l.perNode = slot := by
  rw [Int.ediv_emod_unique (by omega), index, add_comm]

/-- A number is in the block of one node. -/
theorem mem_nodeIndices_iff_ediv : i ∈ l.nodeIndices node ↔ i / l.perNode = node := by
  constructor
  · intro hi
    obtain ⟨hfirst, hlast⟩ := mem_nodeIndices.mp hi
    simp only [index] at hfirst hlast
    have hslot : l.index node (i - l.perNode * node) = i := add_sub_cancel _ _
    exact ((index_eq_iff hl).mp ⟨hslot, by omega, by omega⟩).1
  · intro hnode
    obtain ⟨hindex, hslot⟩ := (index_eq_iff hl).mpr ⟨hnode, rfl⟩
    rw [← hindex]
    exact index_mem_nodeIndices.mpr hslot

/-- The numbers of a system are those whose node is one of it. -/
theorem mem_size_iff {n : Int} :
    i ∈ Span.numbers ⟨0, l.size n⟩ ↔ i / l.perNode ∈ Span.numbers ⟨0, n⟩ := by
  have hpos : 0 < l.perNode := by omega
  rw [Span.mem_numbers, Span.mem_numbers, Int.le_ediv_iff_mul_le hpos,
    Int.ediv_lt_iff_lt_mul hpos, zero_mul, size, mul_comm]

/-- **Every number of a system names one component of one node.** -/
theorem index_bijOn (n : Int) :
    Set.BijOn (fun c : Int × Int => l.index c.1 c.2)
      (Span.numbers ⟨0, n⟩ ×ˢ Span.numbers ⟨0, l.perNode⟩) (Span.numbers ⟨0, l.size n⟩) := by
  have hinverse : Set.InvOn (fun i => (i / l.perNode, i % l.perNode))
      (fun c : Int × Int => l.index c.1 c.2)
      (Span.numbers ⟨0, n⟩ ×ˢ Span.numbers ⟨0, l.perNode⟩) (Span.numbers ⟨0, l.size n⟩) := by
    constructor
    · rintro ⟨node, slot⟩ ⟨-, hslot⟩
      obtain ⟨hnode, hrest⟩ := (index_eq_iff hl).mp ⟨rfl, hslot⟩
      exact Prod.ext hnode hrest
    · intro i _
      exact ((index_eq_iff hl).mpr ⟨rfl, rfl⟩).1
  refine hinverse.bijOn ?_ ?_
  · rintro ⟨node, slot⟩ ⟨hnode, hslot⟩
    refine (mem_size_iff hl).mpr ?_
    rwa [((index_eq_iff hl).mp ⟨rfl, hslot⟩).1]
  · intro i hi
    exact ⟨(mem_size_iff hl).mp hi, ((index_eq_iff hl).mpr ⟨rfl, rfl⟩).2⟩

/-! ## The map of an element -/

/-- **The map of distinct nodes has no number twice.** -/
theorem elementMap_nodup {nodes : List Int} (h : nodes.Nodup) : (l.elementMap nodes).Nodup := by
  refine List.nodup_flatMap.mpr ⟨fun _ _ => nodeIndices_nodup, h.imp fun {node node'} hne => ?_⟩
  intro i hi hi'
  rw [mem_nodeIndices_iff_ediv hl] at hi hi'
  exact hne (hi.symm.trans hi')

end Division

/-- **The map of an element has the blocks of its nodes in order.** The number at a position is that
of the component which the remainder names, of the node which the quotient does. -/
theorem getElem?_elementMap (nodes : List Int) (p : Nat) {k : Nat} (hk : (k : Int) < l.perNode) :
    (l.elementMap nodes)[l.perNode.toNat * p + k]? = nodes[p]?.map fun node => l.index node k := by
  -- on the nodes: a position is in the first block or behind it
  induction nodes generalizing p with
  | nil => rfl
  | cons node nodes ih =>
    have hblock : (l.nodeIndices node).length = l.perNode.toNat := length_nodeIndices
    rw [elementMap, List.flatMap_cons]
    cases p with
    | zero =>
      rw [List.getElem?_append_left (by omega), nodeIndices, List.getElem?_map,
        List.getElem?_range (by omega)]
      rw [Nat.mul_zero, Nat.zero_add]
      rfl
    | succ p =>
      rw [List.getElem?_append_right (by rw [hblock, Nat.mul_succ]; omega), hblock, Nat.mul_succ,
        show l.perNode.toNat * p + l.perNode.toNat + k - l.perNode.toNat
          = l.perNode.toNat * p + k by omega]
      exact ih p

/-! ## The spans of a node -/

/-- **The linear components are in the block of their node** if it has three. -/
theorem linear_subset_iff :
    (∀ i ∈ (l.linear node).numbers, i ∈ l.nodeIndices node) ↔ 3 ≤ l.perNode := by
  simp only [mem_nodeIndices, Span.mem_numbers, linear, index]
  constructor
  · intro h
    have hlast := h (l.perNode * node + 2) ⟨by omega, by omega⟩
    omega
  · intro hthree i hi
    omega

/-- In a smaller block they take the next node's first component with them. -/
theorem next_mem_linear (hl : 1 ≤ l.perNode) (hsmall : l.perNode < 3) :
    l.index (node + 1) 0 ∈ (l.linear node).numbers := by
  rw [index_next]
  simp only [Span.mem_numbers, linear, index]
  omega

/-- Rotations are refused to nodes with fewer than six components, and to no others. -/
theorem rotation_eq_error_iff {α : Type} {e : Failure α} :
    l.rotation node = .error e ↔ l.perNode < 6 ∧ e = .malformed (.noRotations l.perNode) := by
  unfold rotation
  split
  · rename_i hsmall
    exact ⟨fun h => ⟨hsmall, (Except.error.inj h).symm⟩, fun h => by rw [h.2]⟩
  · rename_i hlarge
    exact ⟨nofun, fun h => absurd h.1 hlarge⟩

theorem rotation_eq_ok_iff {α : Type} {s : Span} :
    l.rotation (α := α) node = .ok s ↔ 6 ≤ l.perNode ∧ s = ⟨l.index node 3, l.index node 6⟩ := by
  unfold rotation
  split
  · rename_i hsmall
    exact ⟨nofun, fun h => absurd h.1 (not_le.mpr hsmall)⟩
  · rename_i hlarge
    exact ⟨fun h => ⟨not_lt.mp hlarge, (Except.ok.inj h).symm⟩, fun h => by rw [h.2]⟩

/-- The rotations that a node is given are in its block, beside its linear components. -/
theorem mem_of_rotation {α : Type} {s : Span} (h : l.rotation (α := α) node = .ok s)
    (hi : i ∈ s.numbers) : i ∈ l.nodeIndices node ∧ i ∉ (l.linear node).numbers := by
  obtain ⟨hsix, rfl⟩ := rotation_eq_ok_iff.mp h
  rw [mem_nodeIndices]
  simp only [Span.mem_numbers, linear, index] at hi ⊢
  omega

/-! ## What is named -/

/-- **What a layout names of a node is the node's own**, as far as its block holds it. Numbers and
components of nodes belong to each other one to one; the map of an element has the blocks of its
nodes in order, and none twice; the first component and the rotations that are handed out are in the
block. The linear components are in it if the node has three, and otherwise one of them is the next
node's. -/
theorem slots_within_node {α : Type} (hl : 1 ≤ l.perNode) :
    (∀ n : Nat, Set.BijOn (fun c : Int × Int => l.index c.1 c.2)
        (Span.numbers ⟨0, n⟩ ×ˢ Span.numbers ⟨0, l.perNode⟩) (Span.numbers ⟨0, l.size n⟩))
      ∧ (∀ nodes : List Int, nodes.Nodup → (l.elementMap nodes).Nodup)
      ∧ (∀ (nodes : List Int) (p k : Nat), (k : Int) < l.perNode →
          (l.elementMap nodes)[l.perNode.toNat * p + k]?
            = nodes[p]?.map fun node => l.index node k)
      ∧ ∀ node : Int, l.axial node ∈ l.nodeIndices node
        ∧ ((∀ i ∈ (l.linear node).numbers, i ∈ l.nodeIndices node) ↔ 3 ≤ l.perNode)
        ∧ (l.perNode < 3 → l.index (node + 1) 0 ∈ (l.linear node).numbers)
        ∧ (l.rotation (α := α) node = .error (.malformed (.noRotations l.perNode))
            ↔ l.perNode < 6)
        ∧ ∀ s, l.rotation (α := α) node = .ok s →
            ∀ i ∈ s.numbers, i ∈ l.nodeIndices node ∧ i ∉ (l.linear node).numbers := by
  refine ⟨fun n => index_bijOn hl n, fun _ => elementMap_nodup hl,
    fun nodes p _ => getElem?_elementMap nodes p, fun node => ?_⟩
  have haxial : l.axial node ∈ l.nodeIndices node := index_mem_nodeIndices.mpr ⟨le_rfl, by omega⟩
  have hrefused : l.rotation (α := α) node = .error (.malformed (.noRotations l.perNode))
      ↔ l.perNode < 6 := rotation_eq_error_iff.trans (and_iff_left rfl)
  exact ⟨haxial, linear_subset_iff, next_mem_linear hl, hrefused,
    fun s hs i => mem_of_rotation hs⟩

/-- Nodes with seven components, two of which are joined. -/
theorem slots_within_node_seven :
    1 ≤ (⟨7⟩ : Layout).perNode
      ∧ Set.BijOn (fun c : Int × Int => (⟨7⟩ : Layout).index c.1 c.2)
        (Span.numbers ⟨0, 3⟩ ×ˢ Span.numbers ⟨0, 7⟩) (Span.numbers ⟨0, 21⟩)
      ∧ ((⟨7⟩ : Layout).elementMap [2, 0]).Nodup
      ∧ ((⟨7⟩ : Layout).elementMap [2, 0])[9]? = some 2
      ∧ ∀ i ∈ (⟨10, 13⟩ : Span).numbers, i ∈ (⟨7⟩ : Layout).nodeIndices 1 := by
  obtain ⟨hbijOn, hnodup, hblocks, hnode⟩ :=
    slots_within_node (α := Float) (l := ⟨7⟩) (by decide)
  obtain ⟨-, -, -, -, hrotation⟩ := hnode 1
  exact ⟨by decide, hbijOn 3, hnodup [2, 0] (by decide), hblocks [2, 0] 1 2 (by decide),
    fun i hi => (hrotation ⟨10, 13⟩ rfl i hi).1⟩

/-- **An overrun**: the linear components of the first of several nodes with two components each
are handed out with the first component of the second. -/
theorem linear_overruns_pair :
    (⟨2⟩ : Layout).linear 0 = ⟨0, 3⟩ ∧ 2 ∈ ((⟨2⟩ : Layout).linear 0).numbers
      ∧ 2 ∉ (⟨2⟩ : Layout).nodeIndices 0 ∧ 2 ∈ (⟨2⟩ : Layout).nodeIndices 1 :=
  ⟨rfl, ⟨by decide, by decide⟩, by decide, by decide⟩

end Layout

end Corotation
