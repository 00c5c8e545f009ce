import Corotation.Proofs.System.Numbering
import Corotation.Proofs.System.Partition
/-!
# Nodal loads

A load goes to as many entries as it has components, from the first of its node on, whatever the
node has. What lies beyond the end of the system is cut off before the two lengths are compared, and
a single component fits any length, also none. So an accepted load adds each of its components to
the entry of its number where there is such an entry, and changes nothing else
(`get_addNodalLoad`). It arrives at its node if it is no longer than the node's block, and if no
component lies beyond the end (`addNodalLoad_delivers_iff`): a longer load goes on into the next
node, and a single component beyond the end is dropped.

A refused load gives no vector at all, so what it was to be added to stays as it was.
-/

namespace Corotation

variable {α : Type} {n : Nat}

/-! ## Stretches of a vector -/

namespace Span

/-- A bound that counts from the start is moved to the end at most. -/
theorem place_natCast (size bound : Nat) : place size bound = min bound size := by
  rw [place, if_neg (Int.not_lt.mpr (Int.natCast_nonneg bound)), Int.toNat_natCast]

/-- A span that counts from the start selects so many entries from there on, or those that there
are. -/
theorem select_natCast {β : Type} (base count : Nat) (xs : List β) :
    (⟨base, base + count⟩ : Span).select xs = (xs.drop base).take count := by
  have hstop : place xs.length ((base : Int) + count) = min (base + count) xs.length :=
    place_natCast xs.length (base + count)
  rw [select, first, Span.count, hstop, place_natCast]
  rcases Nat.le_total base xs.length with hle | hge
  · rw [Nat.min_eq_left hle, List.take_eq_take_iff, List.length_drop]
    omega
  · rw [Nat.min_eq_right hge, List.drop_length, List.drop_eq_nil_of_le hge, List.take_nil,
      List.take_nil]

end Span

/-- The components of a system from one on, so many of them or those that there are. -/
def stretch (n base count : Nat) : List (Fin n) := ((List.finRange n).drop base).take count

theorem length_stretch (base count : Nat) :
    (stretch n base count).length = min count (n - base) := by
  rw [stretch, List.length_take, List.length_drop, List.length_finRange]

theorem stretch_nodup (base count : Nat) : (stretch n base count).Nodup :=
  (List.nodup_finRange n).sublist ((List.take_sublist _ _).trans (List.drop_sublist _ _))

theorem getElem_stretch {base count i : Nat} (hi : i < (stretch n base count).length) :
    ((stretch n base count)[i]).val = base + i := by
  simp only [stretch, List.getElem_take, List.getElem_drop, List.getElem_finRange]
  rfl

/-! ## Entries added at distinct components -/

section Carrier

open Scalar

variable [Scalar α]

/-- Of distinct components each gets its own entry, and gets it once. -/
theorem SystemVector.get_scatter_getElem (v : Vector α n) {map : List (Fin n)} (hmap : map.Nodup)
    (entries : List α) {i : Nat} (hi : i < map.length) (hi' : i < entries.length) :
    (scatter v map entries).get map[i] = v.get map[i] + entries[i] := by
  -- on the map: its first component does not come again
  induction map generalizing v entries i with
  | nil => cases hi
  | cons k map ih =>
    obtain ⟨hk, hmap⟩ := List.nodup_cons.mp hmap
    cases entries with
    | nil => cases hi'
    | cons x entries =>
      have hcons : scatter v (k :: map) (x :: entries) = scatter (addAt v k x) map entries := rfl
      rw [hcons]
      cases i with
      | zero =>
        rw [List.getElem_cons_zero, List.getElem_cons_zero, get_scatter_of_notMem _ _ hk, addAt,
          get_modifyAt, if_pos rfl]
      | succ i =>
        have hi : i < map.length := Nat.lt_of_succ_lt_succ hi
        have hne : k ≠ map[i] := fun heq => hk (heq ▸ List.getElem_mem hi)
        rw [List.getElem_cons_succ, List.getElem_cons_succ, ih _ hmap, addAt, get_modifyAt,
          if_neg hne]

/-- What is scattered over a stretch of components that are all there. -/
theorem SystemVector.get_scatter_stretch (v : Vector α n) {base : Nat} {entries : List α}
    (hfits : base + entries.length ≤ n) {k : Fin n} :
    (∀ i (hi : i < entries.length), k.val = base + i →
        (scatter v (stretch n base entries.length) entries).get k = v.get k + entries[i])
      ∧ ((∀ i < entries.length, k.val ≠ base + i) →
        (scatter v (stretch n base entries.length) entries).get k = v.get k) := by
  have hlength : (stretch n base entries.length).length = entries.length := by
    rw [length_stretch]
    omega
  constructor
  · intro i hi hk
    have hi' : i < (stretch n base entries.length).length := by omega
    have hat : (stretch n base entries.length)[i] = k :=
      Fin.ext ((getElem_stretch hi').trans hk.symm)
    rw [← hat]
    exact get_scatter_getElem v (stretch_nodup _ _) entries hi' hi
  · intro hnone
    refine get_scatter_of_notMem v entries fun hmem => ?_
    obtain ⟨i, hi, rfl⟩ := List.getElem_of_mem hmem
    exact hnone i (by omega) (getElem_stretch hi)

/-! ## What a load does -/

variable {l : Layout} {node : Int} {load : List α} {F F' : Vector α n} {base : Nat}

/-- **A load is added to a stretch of entries** if they are all there. Beyond the end of the system
a load of one component, or of none, is accepted and does nothing. -/
theorem addNodalLoad_eq (hbase : l.index node 0 = base) : addNodalLoad l node load F
    = if base + load.length ≤ n then .ok (SystemVector.scatter F (stretch n base load.length) load)
      else if load.length ≤ 1 then .ok F else .error (.fault .shape) := by
  have htargets : (⟨base, base + load.length⟩ : Span).select (List.finRange n)
      = stretch n base load.length := Span.select_natCast base load.length _
  have hlength := length_stretch (n := n) base load.length
  unfold addNodalLoad
  simp only [hbase, htargets, hlength]
  split_ifs with hequal hfits hshort hfits hshort
  · rfl
  · -- a load without components
    have hnil : load = [] := List.eq_nil_of_length_eq_zero (by omega)
    rw [hnil]
    rfl
  · omega
  · omega
  · -- a single component, and no entry for it
    obtain ⟨x, rfl⟩ := List.length_eq_one_iff.mp (show load.length = 1 by omega)
    have hnone : stretch n base 1 = [] := List.eq_nil_of_length_eq_zero (by
      rw [length_stretch]
      simp only [List.length_cons, List.length_nil] at hfits
      omega)
    simp only [List.length_cons, List.length_nil, Nat.zero_add, hnone]
    rfl
  · match load with
    | [] => exact absurd (Nat.zero_le _) hshort
    | [_] => exact absurd le_rfl hshort
    | _ :: _ :: _ => rfl

/-- The components of a node follow its first. -/
theorem index_of_first (hbase : l.index node 0 = base) (i : Nat) : l.index node i = base + i := by
  rw [← hbase]
  simp only [Layout.index]
  omega

/-- **A load is refused** for its shape alone: it has several components, and the last of them lies
beyond the end. -/
theorem addNodalLoad_eq_error_iff (hbase : l.index node 0 = base) {e : Failure α} :
    addNodalLoad l node load F = .error e
      ↔ n < l.index node load.length ∧ 2 ≤ load.length ∧ e = .fault .shape := by
  rw [addNodalLoad_eq hbase, index_of_first hbase]
  split_ifs with hfits hshort
  · simp only [false_iff]
    omega
  · simp only [false_iff]
    omega
  · rw [Except.error.injEq, eq_comm]
    exact ⟨fun he => ⟨by omega, by omega, he⟩, fun h => h.2.2⟩

/-- **An accepted load** is added component by component where there are entries for it, and no
other entry is changed. -/
theorem get_addNodalLoad (hbase : l.index node 0 = base)
    (h : addNodalLoad l node load F = .ok F') (k : Fin n) :
    (∀ i (hi : i < load.length), (k.val : Int) = l.index node i → F'.get k = F.get k + load[i])
      ∧ ((∀ i < load.length, (k.val : Int) ≠ l.index node i) → F'.get k = F.get k) := by
  simp only [index_of_first hbase]
  rw [addNodalLoad_eq hbase] at h
  split_ifs at h with hfits hshort
  · obtain rfl := Except.ok.inj h
    obtain ⟨hadded, hkept⟩ := SystemVector.get_scatter_stretch F hfits (k := k)
    exact ⟨fun i hi hk => hadded i hi (by omega), fun hnone => hkept fun i hi hk =>
      hnone i hi (by omega)⟩
  · -- the one component has its place beyond the end
    obtain rfl := Except.ok.inj h
    refine ⟨fun i hi hk => ?_, fun _ => rfl⟩
    have hk' := k.isLt
    omega

/-- The load of a node has arrived: every component of it is added to an entry of the system, which
is one of the node's, and the entries of other nodes are as they were. -/
structure IsDelivered (l : Layout) (node : Int) (load : List α) (F F' : Vector α n) : Prop where
  /-- Every component is added to the entry that has its number. -/
  added : ∀ i (hi : i < load.length),
    ∃ k : Fin n, (k.val : Int) = l.index node i ∧ F'.get k = F.get k + load[i]
  /-- These entries are the node's. -/
  own : ∀ i < load.length, l.index node i ∈ l.nodeIndices node
  /-- The entries of other nodes are as they were. -/
  others : ∀ k : Fin n, (k.val : Int) ∉ l.nodeIndices node → F'.get k = F.get k

/-- An accepted load has arrived if the block of its node and the system hold it. -/
theorem isDelivered_iff (hbase : l.index node 0 = base) (hl : 1 ≤ l.perNode)
    (h : addNodalLoad l node load F = .ok F') : IsDelivered l node load F F'
      ↔ load.length ≤ l.perNode ∧ (l.index node load.length ≤ n ∨ load = []) := by
  have hindex := index_of_first hbase
  constructor
  · intro hdelivered
    rcases load.eq_nil_or_concat' with rfl | ⟨front, x, rfl⟩
    · exact ⟨by simp only [List.length_nil]; omega, .inr rfl⟩
    · -- the last component is added to an entry of the system, one of the node's
      have hlast : front.length < (front ++ [x]).length := by simp
      obtain ⟨k, hk, -⟩ := hdelivered.added front.length hlast
      have hown := Layout.index_mem_nodeIndices.mp (hdelivered.own front.length hlast)
      have hk' := k.isLt
      rw [List.length_append, List.length_singleton]
      rw [hindex] at hk ⊢
      exact ⟨by omega, .inl (by omega)⟩
  · rintro ⟨hblock, hend⟩
    have hown (i : Nat) (hi : i < load.length) : l.index node i ∈ l.nodeIndices node :=
      Layout.index_mem_nodeIndices.mpr (by omega)
    refine ⟨fun i hi => ?_, hown, fun k hk => ?_⟩
    · have hfits : l.index node load.length ≤ n := hend.resolve_right (List.ne_nil_of_length_pos
        (by omega))
      rw [hindex] at hfits
      refine ⟨⟨base + i, by omega⟩, by rw [hindex]; rfl, ?_⟩
      exact (get_addNodalLoad hbase h _).1 i hi (by rw [hindex]; rfl)
    · exact (get_addNodalLoad hbase h k).2 fun i hi heq => hk (heq ▸ hown i hi)

/-- **Which loads arrive.** A load is refused for its shape if two or more of its components do not
all have an entry. An accepted one is added where there are entries for it. So it arrives at its
node if it is no longer than the node's block and, unless it is empty, does not go beyond the end of
the system. -/
theorem addNodalLoad_delivers_iff (hnode : 0 ≤ node) (hl : 1 ≤ l.perNode) :
    (∀ e, addNodalLoad l node load F = .error e
        ↔ n < l.index node load.length ∧ 2 ≤ load.length ∧ e = .fault .shape)
      ∧ ∀ F', addNodalLoad l node load F = .ok F' →
        (∀ k : Fin n,
          (∀ i (hi : i < load.length), (k.val : Int) = l.index node i →
            F'.get k = F.get k + load[i])
          ∧ ((∀ i < load.length, (k.val : Int) ≠ l.index node i) → F'.get k = F.get k))
        ∧ (IsDelivered l node load F F'
          ↔ load.length ≤ l.perNode ∧ (l.index node load.length ≤ n ∨ load = [])) := by
  have hfirst : 0 ≤ l.index node 0 := by
    rw [Layout.index, add_zero]
    exact mul_nonneg (by omega) hnode
  obtain ⟨base, hbase⟩ := Int.eq_ofNat_of_zero_le hfirst
  exact ⟨fun e => addNodalLoad_eq_error_iff hbase,
    fun F' h => ⟨get_addNodalLoad hbase h, isDelivered_iff hbase hl h⟩⟩

end Carrier

/-- A moment about the last axis of the second of two nodes. -/
theorem addNodalLoad_delivers_moment :
    letI : SeriesAngle := .exact
    (0 : Int) ≤ 1 ∧ 1 ≤ Layout.frame.perNode
      ∧ ∃ F', addNodalLoad .frame 1 [0, 0, 0, 0, 0, 5] (SystemVector.zero : Vector ℝ 12) = .ok F'
        ∧ IsDelivered .frame 1 [0, 0, 0, 0, 0, (5 : ℝ)] SystemVector.zero F' := by
  let _ : SeriesAngle := .exact
  have hnode : (0 : Int) ≤ 1 := by decide
  have hl : 1 ≤ Layout.frame.perNode := by decide
  refine ⟨hnode, hl, ?_⟩
  cases h : addNodalLoad .frame 1 [0, 0, 0, 0, 0, (5 : ℝ)] (SystemVector.zero : Vector ℝ 12) with
  | error e => exact absurd (((addNodalLoad_delivers_iff hnode hl).1 e).mp h).1 (by decide)
  | ok F' =>
    have harrives := ((addNodalLoad_delivers_iff hnode hl).2 F' h).2
    exact ⟨F', rfl, harrives.mpr ⟨by decide, .inl (by decide)⟩⟩

/-- **Loads that go astray.** The moments of a load of six components at a node with three are added
to the components of the next node, and a single component for a node beyond the last is dropped. -/
theorem addNodalLoad_goes_astray :
    letI : SeriesAngle := .exact
    (∃ F', addNodalLoad ⟨3⟩ 0 [0, 0, 0, 5, 0, 0] (SystemVector.zero : Vector ℝ 6) = .ok F'
        ∧ F'.get 3 = 5 ∧ 3 ∉ (⟨3⟩ : Layout).nodeIndices 0 ∧ 3 ∈ (⟨3⟩ : Layout).nodeIndices 1)
      ∧ addNodalLoad .frame 2 [5] (SystemVector.zero : Vector ℝ 12) = .ok SystemVector.zero := by
  let _ : SeriesAngle := .exact
  constructor
  · have hbase : (⟨3⟩ : Layout).index 0 0 = (0 : Nat) := rfl
    have hspill : addNodalLoad ⟨3⟩ 0 [0, 0, 0, (5 : ℝ), 0, 0] (SystemVector.zero : Vector ℝ 6)
        = .ok _ := (addNodalLoad_eq hbase).trans (if_pos (by decide))
    have hmoment := (get_addNodalLoad hbase hspill 3).1 3 (by decide) rfl
    refine ⟨_, hspill, ?_, by decide, by decide⟩
    rw [hmoment, SystemVector.get_zero]
    exact zero_add (5 : ℝ)
  · have hbase : Layout.frame.index 2 0 = (12 : Nat) := rfl
    rw [addNodalLoad_eq hbase, if_neg (by decide), if_pos (by decide)]

end Corotation
