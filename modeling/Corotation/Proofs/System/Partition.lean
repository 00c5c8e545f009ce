import Corotation.Proofs.System.Assembly
import Corotation.System.Solve
/-!
# Fixed and free components

A list of numbers names components of a system, each by its own number or counted from the end
(`position?_eq_some_iff`). The components that it names are held: a residual is cleared there,
and a load is measured without them (`get_clear`, `without_eq`). The linear solve goes by a
component's own number only, and answers with zero there (`solveLinear_get_fixed`).
-/

namespace Corotation

open Scalar

variable {α : Type} {n : Nat}

/-! ## Positions -/

/-- A number names a component if it is the component's own or counts from the end to it. -/
theorem position?_eq_some_iff {i : Int} {k : Fin n} :
    position? n i = some k ↔ i = k.val ∨ i + n = k.val := by
  have hk := k.isLt
  unfold position?
  by_cases hi : i < 0
  · simp only [hi, if_true]
    split
    · rw [Option.some_inj, Fin.ext_iff]
      change (i + n).toNat = k.val ↔ _
      omega
    · exact ⟨nofun, fun h => by omega⟩
  · simp only [hi, if_false]
    split
    · rw [Option.some_inj, Fin.ext_iff]
      change i.toNat = k.val ↔ _
      omega
    · exact ⟨nofun, fun h => by omega⟩

/-- Every number of the range names a component. -/
theorem exists_position? {i : Int} (h0 : -n ≤ i) (h1 : i < n) : ∃ k, position? n i = some k := by
  by_cases hi : i < 0
  · exact ⟨⟨(i + n).toNat, by omega⟩, position?_eq_some_iff.mpr (.inr (by simp only; omega))⟩
  · exact ⟨⟨i.toNat, by omega⟩, position?_eq_some_iff.mpr (.inl (by simp only; omega))⟩

/-- A list is resolved number by number. -/
theorem resolve_cons (i : Int) (fixed : List Int) :
    resolve (α := α) n (i :: fixed) = match position? n i with
      | some k => (resolve n fixed).map (k :: ·)
      | none => .error (.fault .indexRange) := by
  unfold resolve
  rw [List.mapM_cons]
  cases position? n i with
  | none => rfl
  | some k => rfl

/-- A list is resolved if every number of it names a component, to these components. -/
theorem resolve_eq_ok_iff {fixed : List Int} {held : List (Fin n)} :
    resolve (α := α) n fixed = .ok held
      ↔ List.Forall₂ (fun i k => position? n i = some k) fixed held := by
  induction fixed generalizing held with
  | nil =>
    rw [List.forall₂_nil_left_iff]
    exact ⟨fun h => (Except.ok.inj h).symm, fun h => congrArg Except.ok h.symm⟩
  | cons i fixed ih =>
    rw [resolve_cons, List.forall₂_cons_left_iff]
    cases hi : position? n i with
    | none => exact ⟨nofun, by rintro ⟨k, _, hk, -⟩; cases hk⟩
    | some k =>
      constructor
      · cases hrest : resolve (α := α) n fixed with
        | error e => exact nofun
        | ok rest => exact fun h => ⟨k, rest, rfl, ih.mp hrest, (Except.ok.inj h).symm⟩
      · rintro ⟨k', rest, hk, hforall, rfl⟩
        obtain rfl := Option.some_inj.mp hk
        simp only [ih.mpr hforall]
        rfl

/-- A list of numbers of the range is resolved. -/
theorem exists_resolve {fixed : List Int} (h : ∀ i ∈ fixed, -n ≤ i ∧ i < n) :
    ∃ held, resolve (α := α) n fixed = .ok held := by
  have hforall : ∃ held : List (Fin n),
      List.Forall₂ (fun i k => position? n i = some k) fixed held := by
    induction fixed with
    | nil => exact ⟨[], .nil⟩
    | cons i fixed ih =>
      obtain ⟨held, hheld⟩ := ih fun j hj => h j (List.mem_cons_of_mem i hj)
      obtain ⟨k, hk⟩ := exists_position? (h i List.mem_cons_self).1 (h i List.mem_cons_self).2
      exact ⟨k :: held, .cons hk hheld⟩
  obtain ⟨held, hheld⟩ := hforall
  exact ⟨held, resolve_eq_ok_iff.mpr hheld⟩

/-- The held components are those that are named. -/
theorem mem_of_resolve {fixed : List Int} {held : List (Fin n)}
    (h : resolve (α := α) n fixed = .ok held) {k : Fin n} :
    k ∈ held ↔ (k.val : Int) ∈ fixed ∨ (k.val : Int) - n ∈ fixed := by
  have hforall := resolve_eq_ok_iff.mp h
  clear h
  induction hforall with
  | nil => simp
  | @cons i k' fixed held hk' _ ih =>
    have hsame : k = k' ↔ (k.val : Int) = i ∨ (k.val : Int) - n = i := by
      have hk : position? n i = some k ↔ _ := position?_eq_some_iff
      rw [hk', Option.some_inj, eq_comm] at hk
      omega
    simp only [List.mem_cons, hsame, ih]
    tauto

/-- A component is free unless its own number is listed. -/
theorem mem_freeComponents {fixed : List Int} {k : Fin n} :
    k ∈ freeComponents n fixed ↔ (k.val : Int) ∉ fixed := by
  unfold freeComponents
  simp

variable [Scalar α]

/-! ## Vectors -/

namespace SystemVector

omit [Scalar α] in
/-- A vector is its components. -/
theorem ext_get {a b : Vector α n} (h : ∀ k, a.get k = b.get k) : a = b :=
  Vector.ext fun i hi => h ⟨i, hi⟩

/-- A cleared vector is zero where it is held and as it was elsewhere. -/
theorem get_clear (v : Vector α n) (held : List (Fin n)) (k : Fin n) :
    (clear v held).get k = if k ∈ held then 0 else v.get k := by
  unfold clear
  induction held generalizing v with
  | nil => simp
  | cons i held ih =>
    rw [List.foldl_cons, ih, get_modifyAt]
    by_cases hk : k ∈ held
    · simp [hk]
    · by_cases hik : i = k
      · simp [hik]
      · simp [hk, hik, Ne.symm hik]

/-- What is scattered elsewhere leaves a component as it was. -/
theorem get_scatter_of_notMem (v : Vector α n) {map : List (Fin n)} (entries : List α) {k : Fin n}
    (hk : k ∉ map) : (scatter v map entries).get k = v.get k := by
  have hkeep (entries : List (Fin n × α)) (v : Vector α n) (h : ∀ e ∈ entries, e.1 ≠ k) :
      (entries.foldl (fun v e => addAt v e.1 e.2) v).get k = v.get k := by
    induction entries generalizing v with
    | nil => rfl
    | cons e entries ih =>
      rw [List.foldl_cons, ih _ fun e' he' => h e' (List.mem_cons_of_mem e he'), addAt,
        get_modifyAt, if_neg (h e List.mem_cons_self)]
  refine hkeep _ v fun e he heq => hk ?_
  rw [← heq]
  exact (List.of_mem_zip he).1

omit [Scalar α] in
/-- A load is measured on the components that are not held. -/
theorem without_eq (v : Vector α n) (held : List (Fin n)) :
    without v held = ((List.finRange n).filter fun i => i ∉ held).map v.get := by
  unfold without
  refine congrArg (List.map v.get) (List.filter_congr fun i _ => ?_)
  simp

@[simp] theorem get_zero (k : Fin n) : (zero : Vector α n).get k = 0 := Vector.getElem_replicate _

@[simp] theorem get_add (a b : Vector α n) (k : Fin n) : (add a b).get k = a.get k + b.get k :=
  Vector.getElem_zipWith _

@[simp] theorem get_sub (a b : Vector α n) (k : Fin n) : (sub a b).get k = a.get k - b.get k :=
  Vector.getElem_zipWith _

@[simp] theorem get_scale (x : α) (a : Vector α n) (k : Fin n) :
    (scale x a).get k = x * a.get k := Vector.getElem_map _ _

end SystemVector

/-- The linear solve refuses a singular matrix, or there is a decomposition that the matrix does
not have. -/
theorem solveLinear_eq_error [Conditioned α] {K : Square n α} {F : Vector α n} {fixed : List Int}
    {limit : α} {e : Failure α} (h : solveLinear K F fixed limit = .error e) :
    e = .unstable limit ∨ e = .fault .decomposition := by
  unfold solveLinear checkCondition at h
  simp only at h
  split at h
  · rename_i hcheck
    obtain rfl := Except.error.inj h
    split at hcheck
    · exact .inr (Except.error.inj hcheck).symm
    · exact .inl (Except.error.inj hcheck).symm
    · split at hcheck
      · exact .inl (Except.error.inj hcheck).symm
      · cases hcheck
  · split at h
    · exact .inr (Except.error.inj h).symm
    · cases h

/-- **The linear solve answers with zero at a component whose own number is listed.** -/
theorem solveLinear_get_fixed [Conditioned α] {K : Square n α} {F : Vector α n} {fixed : List Int}
    {limit : α} {x : Solution n α} (h : solveLinear K F fixed limit = .ok x) {k : Fin n}
    (hk : (k.val : Int) ∈ fixed) : x.displacement.get k = 0 := by
  unfold solveLinear at h
  simp only at h
  split at h
  · cases h
  · split at h
    · cases h
    · rw [← Except.ok.inj h]
      change (SystemVector.scatter _ _ _).get k = 0
      rw [SystemVector.get_scatter_of_notMem _ _ fun hfree => mem_freeComponents.mp hfree hk,
        SystemVector.get_zero]

end Corotation
