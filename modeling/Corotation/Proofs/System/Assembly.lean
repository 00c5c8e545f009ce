import Mathlib.Algebra.BigOperators.Group.List.Basic
import Mathlib.Data.List.Rotate
import Corotation.Proofs.Scalar.Real
import Corotation.System.Assembly
/-!
# Assembly over the real numbers

An entry of an assembled vector or matrix is the sum of what the contributions
deposit there (`get_assemble`). So the order of the contributions does not matter,
and neither does the order in which one of them lists its components, as long as its
entries are listed in the same order (`deposit_rotate`).
-/

namespace Corotation

variable {n : Nat}

/-- What a list of entries deposits in a component of the system. -/
noncomputable def deposit (map : List (Fin n)) (entries : List ℝ) (k : Fin n) : ℝ :=
  ((map.zip entries).map fun e => if e.1 = k then e.2 else 0).sum

/-- What a list of rows deposits in an entry of the system matrix. -/
noncomputable def depositAt (map : List (Fin n)) (rows : List (List ℝ)) (k l : Fin n) : ℝ :=
  ((map.zip rows).map fun e => if e.1 = k then deposit map e.2 l else 0).sum

/-- An entry after one entry was sent through a function. -/
theorem SystemVector.get_modifyAt {β : Type} (v : Vector β n) (i k : Fin n) (f : β → β) :
    (modifyAt v i f).get k = if i = k then f (v.get k) else v.get k := by
  unfold modifyAt
  change (v.set i.val (f (v.get i)) i.isLt)[k.val] = _
  rw [Vector.getElem_set]
  by_cases hik : i = k
  · subst hik
    rw [if_pos rfl, if_pos rfl]
  · rw [if_neg fun h => hik (Fin.ext h), if_neg hik]
    rfl

/-- A fold adds up what its steps add. -/
theorem foldl_add {σ γ : Type} {step : σ → γ → σ} (entry : σ → ℝ) {amount : γ → ℝ}
    (h : ∀ s c, entry (step s c) = entry s + amount c) (cs : List γ) (s : σ) :
    entry (cs.foldl step s) = entry s + (cs.map amount).sum := by
  induction cs generalizing s with
  | nil => simp
  | cons c cs ih => rw [List.foldl_cons, ih, h, List.map_cons, List.sum_cons, add_assoc]

section Sums

variable [SeriesAngle]

namespace SystemVector

/-- **A scattered vector** gets what is deposited. -/
theorem get_scatter (v : Vector ℝ n) (map : List (Fin n)) (entries : List ℝ) (k : Fin n) :
    (scatter v map entries).get k = v.get k + deposit map entries k := by
  refine foldl_add (fun v : Vector ℝ n => v.get k) (fun v e => ?_) _ v
  change (modifyAt v e.1 _).get k = _
  rw [get_modifyAt]
  split
  · rfl
  · exact (add_zero _).symm

/-- **An assembled vector** has the sum of what the contributions deposit. -/
theorem get_assemble (contributions : List (List (Fin n) × List ℝ)) (k : Fin n) :
    (assemble contributions).get k = (contributions.map fun c => deposit c.1 c.2 k).sum := by
  have hzero : (zero : Vector ℝ n).get k = 0 := Vector.getElem_replicate _
  rw [assemble, foldl_add (fun v : Vector ℝ n => v.get k)
    (fun v c => get_scatter v c.1 c.2 k), hzero, zero_add]

end SystemVector

namespace Square

theorem get_zero (k l : Fin n) : ((zero : Square n ℝ).get k).get l = 0 := by
  change ((Vector.replicate n (Vector.replicate n (0 : ℝ)))[k.val])[l.val] = 0
  rw [Vector.getElem_replicate, Vector.getElem_replicate]

/-- **A scattered matrix** gets what is deposited. -/
theorem get_scatter (K : Square n ℝ) (map : List (Fin n)) (rows : List (List ℝ)) (k l : Fin n) :
    ((scatter K map rows).get k).get l = (K.get k).get l + depositAt map rows k l := by
  refine foldl_add (fun K : Square n ℝ => (K.get k).get l) (fun K e => ?_) _ K
  rw [SystemVector.get_modifyAt]
  split
  · exact SystemVector.get_scatter _ _ _ _
  · exact (add_zero _).symm

/-- **An assembled matrix** has the sum of what the contributions deposit. -/
theorem get_assemble (contributions : List (List (Fin n) × List (List ℝ))) (k l : Fin n) :
    ((assemble contributions).get k).get l
      = (contributions.map fun c => depositAt c.1 c.2 k l).sum := by
  rw [assemble, foldl_add (fun K : Square n ℝ => (K.get k).get l)
    (fun K c => get_scatter K c.1 c.2 k l), get_zero, zero_add]

end Square

end Sums

/-- Lists of components and of entries that are joined deposit the sum. -/
theorem deposit_append {map : List (Fin n)} {entries : List ℝ}
    (h : map.length = entries.length) (map' : List (Fin n)) (entries' : List ℝ) (k : Fin n) :
    deposit (map ++ map') (entries ++ entries') k
      = deposit map entries k + deposit map' entries' k := by
  unfold deposit
  rw [List.zip_append h, List.map_append, List.sum_append]

/-! ## The order of the components -/

/-- Components and entries listed from another place on deposit the same. -/
theorem deposit_rotate {map : List (Fin n)} {entries : List ℝ} (h : map.length = entries.length)
    (r : Nat) (k : Fin n) :
    deposit (map.rotate r) (entries.rotate r) k = deposit map entries k := by
  have hzip : (map.rotate r).zip (entries.rotate r) = (map.zip entries).rotate r :=
    (List.zipWith_rotate_distrib Prod.mk map entries r h).symm
  unfold deposit
  rw [hzip]
  exact ((List.rotate_perm _ r).map _).sum_eq

/-- So do components, rows and the entries of every row. -/
theorem depositAt_rotate {map : List (Fin n)} {rows : List (List ℝ)}
    (h : map.length = rows.length) (hrows : ∀ row ∈ rows, map.length = row.length) (r : Nat)
    (k l : Fin n) :
    depositAt (map.rotate r) ((rows.rotate r).map fun row => row.rotate r) k l
      = depositAt map rows k l := by
  have hzip : (map.rotate r).zip (rows.rotate r) = (map.zip rows).rotate r :=
    (List.zipWith_rotate_distrib Prod.mk map rows r h).symm
  unfold depositAt
  rw [List.zip_map_right, hzip, List.map_map, ((List.rotate_perm (map.zip rows) r).map _).sum_eq]
  refine congrArg List.sum (List.map_congr_left fun e he => ?_)
  have hdeposit := deposit_rotate (hrows e.2 (List.of_mem_zip he).2) r l
  simp only [Function.comp_apply, Prod.map_fst, Prod.map_snd, id_eq, hdeposit]

end Corotation
