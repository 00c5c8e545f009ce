import Mathlib.Algebra.BigOperators.Fin
import Mathlib.Data.List.GetD
import Corotation.Proofs.System.Partition
import Corotation.Supplied.System
/-!
# Assembly and gathering

To gather is to read a system vector at the component numbers of an element. Assembly is its
adjoint: a force that is assembled does on a displacement the work that the element forces do on
what the elements gather of it, and an assembled matrix pairs two displacements as the element
matrices pair what is gathered (`assembly_adjoint`). The numbers may repeat, in one map and in
several, and may count from the end.

A vector is known by its products with all others, so the order of the contributions does not
matter.
-/

namespace Corotation

variable {n : Nat}

/-! ## Sums over lists -/

/-- A weighted sum passes through the sum over a list. -/
theorem sum_mul_list_sum {β κ : Type} [Fintype κ] (x : κ → ℝ) (f : β → κ → ℝ) (bs : List β) :
    ∑ k, x k * (bs.map fun b => f b k).sum = (bs.map fun b => ∑ k, x k * f b k).sum := by
  induction bs with
  | nil => simp
  | cons b bs ih => simp only [List.map_cons, List.sum_cons, mul_add, Finset.sum_add_distrib, ih]

/-- A sum over two lists of one length, place by place. -/
theorem sum_map_zip {β γ : Type} (f : β × γ → ℝ) {as : List β} {bs : List γ} {m : Nat}
    (has : as.length = m) (hbs : bs.length = m) (d : γ) :
    ((as.zip bs).map f).sum = ∑ a : Fin m, f (as[a], bs.getD a d) := by
  subst has
  rw [← List.sum_ofFn]
  refine congrArg List.sum (List.ext_getElem ?_ fun i hi hi' => ?_)
  · simp [hbs]
  · have hi : i < bs.length := by
      rw [hbs]
      simpa using hi'
    simp [hi]

/-- The products of a vector with what is deposited. -/
theorem sum_mul_deposit (x : Fin n → ℝ) (map : List (Fin n)) (entries : List ℝ) :
    ∑ k, x k * deposit map entries k = ((map.zip entries).map fun e => x e.1 * e.2).sum := by
  unfold deposit
  rw [sum_mul_list_sum]
  simp only [mul_ite, mul_zero, Finset.sum_ite_eq, Finset.mem_univ, if_true]

/-- The products of two vectors with what rows deposit. -/
theorem sum_mul_depositAt (x y : Fin n → ℝ) (map : List (Fin n)) (rows : List (List ℝ)) :
    ∑ k, ∑ l, x k * depositAt map rows k l * y l
      = ((map.zip rows).map fun e =>
          x e.1 * ((map.zip e.2).map fun e' => y e'.1 * e'.2).sum).sum := by
  -- with the row held, the products with the second vector are those of a deposited vector
  have hrow (k : Fin n) : ∑ l, x k * depositAt map rows k l * y l
      = x k * ((map.zip rows).map fun e =>
          if e.1 = k then ((map.zip e.2).map fun e' => y e'.1 * e'.2).sum else 0).sum := by
    have hswap (l : Fin n) : x k * depositAt map rows k l * y l
        = x k * (y l * depositAt map rows k l) := by ring
    simp only [hswap]
    rw [← Finset.mul_sum]
    unfold depositAt
    rw [sum_mul_list_sum]
    simp only [mul_ite, mul_zero, ← sum_mul_deposit]
    refine congrArg (fun s : List ℝ => x k * s.sum) (List.map_congr_left fun e _ => ?_)
    split
    · rfl
    · simp
  simp only [hrow]
  rw [sum_mul_list_sum]
  simp only [mul_ite, mul_zero, Finset.sum_ite_eq, Finset.mem_univ, if_true]

/-- A checked fold whose steps succeed adds up what they add. -/
theorem foldlM_add {σ γ ι : Type} {step : σ → γ → Except (Failure ℝ) σ} (reading : ι → σ → ℝ)
    {amount : ι → γ → ℝ} {cs : List γ}
    (h : ∀ c ∈ cs, ∀ s, ∃ s', step s c = .ok s' ∧ ∀ i, reading i s' = reading i s + amount i c)
    (s : σ) : ∃ s', cs.foldlM step s = .ok s'
      ∧ ∀ i, reading i s' = reading i s + (cs.map (amount i)).sum := by
  -- on the list, from every state: the rest starts where the first step ends
  induction cs generalizing s with
  | nil => exact ⟨s, rfl, fun i => (add_zero _).symm⟩
  | cons c cs ih =>
    obtain ⟨s₁, hstep, hadded⟩ := h c List.mem_cons_self s
    obtain ⟨s₂, hrest, hall⟩ := ih (fun c' hc' => h c' (List.mem_cons_of_mem c hc')) s₁
    refine ⟨s₂, ?_, fun i => ?_⟩
    · rw [List.foldlM_cons, hstep]
      exact hrest
    · rw [hall, hadded, List.map_cons, List.sum_cons, add_assoc]

/-! ## Rows of a grid -/

namespace Grid

variable {β : Type}

theorem length_cut (width count : Nat) (xs : List β) : (cut width count xs).length = count := by
  induction count generalizing xs with
  | zero => rfl
  | succ count ih => rw [cut, List.length_cons, ih]

/-- A row begins after the rows before it. -/
theorem getD_cut {width count a : Nat} (ha : a < count) (xs : List β) :
    (cut width count xs).getD a [] = (xs.drop (width * a)).take width := by
  induction count generalizing xs a with
  | zero => cases ha
  | succ count ih =>
    cases a with
    | zero => rfl
    | succ a =>
      rw [cut, List.getD_cons_succ, ih (Nat.lt_of_succ_lt_succ ha), List.drop_drop, Nat.mul_succ,
        Nat.add_comm width]

/-- Where all entries are there, a row has its width. -/
theorem length_getD_cut {width count a : Nat} (ha : a < count) {xs : List β}
    (hxs : xs.length = count * width) : ((cut width count xs).getD a []).length = width := by
  have hend : width * a + width ≤ width * count := by
    rw [← Nat.mul_succ]
    exact Nat.mul_le_mul_left width ha
  rw [getD_cut ha, List.length_take, List.length_drop, hxs, Nat.mul_comm count]
  omega

/-- The entries of the rows are those of the list, row by row. -/
theorem getD_getD_cut {width count a b : Nat} (ha : a < count) (hb : b < width) (xs : List β)
    (d : β) : ((cut width count xs).getD a []).getD b d = xs.getD (width * a + b) d := by
  rw [getD_cut ha, List.getD_eq_getElem?_getD, List.getD_eq_getElem?_getD,
    List.getElem?_take_of_lt hb, List.getElem?_drop]

end Grid

/-! ## What an element gathers -/

/-- The value of a field of components at a component number. A number below zero counts from the
end: it stands for the size of the system plus it. -/
def valueAt (x : Fin n → ℝ) (i : Int) : ℝ :=
  if h : 0 ≤ i ∧ i < n then x ⟨i.toNat, by omega⟩
  else if h : -n ≤ i ∧ i < 0 then x ⟨(n + i).toNat, by omega⟩
  else 0

theorem valueAt_of_position? {x : Fin n → ℝ} {i : Int} {k : Fin n} (h : position? n i = some k) :
    valueAt x i = x k := by
  have hk := k.isLt
  unfold valueAt
  rcases position?_eq_some_iff.mp h with rfl | hback
  · rw [dif_pos ⟨by omega, by omega⟩]
    rfl
  · rw [dif_neg (by omega), dif_pos ⟨by omega, by omega⟩]
    exact congrArg x (Fin.ext (by simp only; omega))

namespace Supplied.Contribution

variable (c : Contribution ℝ)

/-- The component numbers are whole, and a system of `n` components has them. -/
def IsPlaced (n : Nat) (c : Contribution ℝ) : Prop :=
  ∃ numbers : List Int, c.map = numbers.map some ∧ ∀ i ∈ numbers, -(n : Int) ≤ i ∧ i < n

/-- An element vector that fits its map and the system. -/
structure FitsVector (n : Nat) (c : Contribution ℝ) : Prop where
  /-- The system has its components. -/
  placed : c.IsPlaced n
  /-- It is a vector with an entry for each of them. -/
  shape : c.entries.shape = [c.map.length]
  /-- All its entries are there. -/
  length : c.entries.entries.length = c.map.length

/-- An element matrix that fits its map and the system. -/
structure FitsMatrix (n : Nat) (c : Contribution ℝ) : Prop where
  /-- The system has its components. -/
  placed : c.IsPlaced n
  /-- It is a matrix with a row and a column for each of them. -/
  shape : c.entries.shape = [c.map.length, c.map.length]
  /-- All its entries are there. -/
  length : c.entries.entries.length = c.map.length * c.map.length

/-- What is read of a system vector at a place of the map. -/
def gathered (x : Fin n → ℝ) (a : Fin c.map.length) : ℝ := (c.map.get a).elim 0 (valueAt x)

/-- The product of the entries of an element vector with what its map gathers. -/
def work (x : Fin n → ℝ) : ℝ :=
  ∑ a : Fin c.map.length, c.gathered x a * c.entries.entries.getD a 0

/-- The product of the entries of an element matrix with what its map gathers of two vectors. The
entries are listed row by row. -/
def pairing (x y : Fin n → ℝ) : ℝ :=
  ∑ a : Fin c.map.length, ∑ b : Fin c.map.length,
    c.gathered x a * c.entries.entries.getD (c.map.length * a + b) 0 * c.gathered y b

variable {c}

/-- The positions of a placed contribution are where it gathers. -/
theorem IsPlaced.exists_positions (h : c.IsPlaced n) :
    ∃ ks : List (Fin n), c.positions n = .ok ks ∧ ∃ hlength : ks.length = c.map.length,
      ∀ (x : Fin n → ℝ) (a : Fin c.map.length), c.gathered x a = x ks[a] := by
  obtain ⟨numbers, hmap, hrange⟩ := h
  obtain ⟨ks, hks⟩ := exists_resolve (α := ℝ) hrange
  have hwhole : c.map.mapM id = some numbers := by
    rw [hmap]
    clear hmap hrange hks
    induction numbers with
    | nil => rfl
    | cons i numbers ih =>
      rw [List.map_cons, List.mapM_cons, ih]
      rfl
  have hnames := resolve_eq_ok_iff.mp hks
  have hlength : ks.length = c.map.length := by rw [hmap, List.length_map, hnames.length_eq]
  refine ⟨ks, ?_, hlength, fun x a => ?_⟩
  · unfold positions
    rw [hwhole]
    exact hks
  · have ha : a.val < numbers.length := by
      rw [hnames.length_eq, hlength]
      exact a.isLt
    have hnumber : c.map.get a = some numbers[a.val] := by
      simp only [List.get_eq_getElem, hmap, List.getElem_map]
    have hposition : position? n numbers[a.val] = some ks[a.val] := hnames.get ha (by omega)
    rw [gathered, hnumber]
    exact valueAt_of_position? hposition

/-! ## One contribution -/

variable [SeriesAngle]

/-- **An element vector** is scattered, and adds its work. -/
theorem FitsVector.scatterVector (h : c.FitsVector n) (F : Vector ℝ n) :
    ∃ F', Supplied.scatterVector F c = .ok F'
      ∧ ∀ x : Fin n → ℝ, ∑ k, x k * F'.get k = ∑ k, x k * F.get k + c.work x := by
  obtain ⟨ks, hks, hlength, hgathered⟩ := h.placed.exists_positions
  refine ⟨SystemVector.scatter F ks c.entries.entries, ?_, fun x => ?_⟩
  · unfold Supplied.scatterVector
    rw [if_pos h.shape, hks]
    rfl
  · simp only [SystemVector.get_scatter, mul_add, Finset.sum_add_distrib]
    rw [sum_mul_deposit, sum_map_zip _ hlength h.length 0]
    exact congrArg (_ + ·) (Finset.sum_congr rfl fun a _ => by rw [hgathered])

/-- **An element matrix** is scattered, and adds its pairing. -/
theorem FitsMatrix.scatterMatrix (h : c.FitsMatrix n) (K : Square n ℝ) :
    ∃ K', Supplied.scatterMatrix K c = .ok K'
      ∧ ∀ x y : Fin n → ℝ, ∑ k, ∑ l, x k * (K'.get k).get l * y l
        = ∑ k, ∑ l, x k * (K.get k).get l * y l + c.pairing x y := by
  obtain ⟨ks, hks, hlength, hgathered⟩ := h.placed.exists_positions
  have hrows : c.entries.rows
      = .ok (Grid.cut c.map.length c.map.length c.entries.entries) := by
    unfold Grid.rows Grid.rows?
    rw [h.shape]
    rfl
  refine ⟨Square.scatter K ks (Grid.cut c.map.length c.map.length c.entries.entries), ?_,
    fun x y => ?_⟩
  · unfold Supplied.scatterMatrix
    rw [if_pos h.shape, hks, hrows]
    rfl
  · simp only [Square.get_scatter, mul_add, add_mul, Finset.sum_add_distrib]
    rw [sum_mul_depositAt, sum_map_zip _ hlength (Grid.length_cut _ _ _) []]
    refine congrArg (_ + ·) (Finset.sum_congr rfl fun a _ => ?_)
    rw [sum_map_zip _ hlength (Grid.length_getD_cut a.isLt h.length) 0, Finset.mul_sum]
    refine Finset.sum_congr rfl fun b _ => ?_
    rw [hgathered, hgathered, Grid.getD_getD_cut a.isLt b.isLt]
    ring

end Supplied.Contribution

/-! ## A whole system -/

/-- A vector is known by its products. -/
theorem SystemVector.ext_products {F F' : Vector ℝ n}
    (h : ∀ x : Fin n → ℝ, ∑ k, x k * F.get k = ∑ k, x k * F'.get k) : F = F' := by
  -- a unit vector picks an entry out
  refine ext_get fun k => ?_
  have hunit := h (Pi.single k 1)
  simpa only [Pi.single_apply, ite_mul, one_mul, zero_mul, Finset.sum_ite_eq', Finset.mem_univ,
    if_true] using hunit

/-- A matrix is known by its products with two vectors. -/
theorem Square.ext_products {K K' : Square n ℝ}
    (h : ∀ x y : Fin n → ℝ, ∑ k, ∑ l, x k * (K.get k).get l * y l
      = ∑ k, ∑ l, x k * (K'.get k).get l * y l) : K = K' := by
  refine SystemVector.ext_get fun k => SystemVector.ext_products fun y => ?_
  have hunit := h (Pi.single k 1) y
  simpa only [Pi.single_apply, ite_mul, one_mul, zero_mul, Finset.sum_const_zero,
    Finset.sum_ite_irrel, Finset.sum_ite_eq', Finset.mem_univ, if_true, mul_comm (y _)] using hunit

namespace Supplied

variable [SeriesAngle] {stiffnesses forces : List (Contribution ℝ)}

/-- Element vectors that fit are assembled, and do the work of all of them. -/
theorem exists_assembleVector (h : ∀ c ∈ forces, c.FitsVector n) :
    ∃ F, assembleVector n forces = .ok F
      ∧ ∀ x : Fin n → ℝ, ∑ k, x k * F.get k = (forces.map fun c => c.work x).sum := by
  obtain ⟨F, hF, hwork⟩ := foldlM_add
    (fun (x : Fin n → ℝ) (F : Vector ℝ n) => ∑ k, x k * F.get k)
    (fun c hc F => (h c hc).scatterVector F) SystemVector.zero
  refine ⟨F, hF, fun x => (hwork x).trans ?_⟩
  simp only [SystemVector.get_zero]
  exact add_eq_right.mpr (Finset.sum_eq_zero fun k _ => mul_zero (x k))

/-- Element matrices that fit are assembled, and pair vectors as all of them do. -/
theorem exists_assembleMatrix (h : ∀ c ∈ stiffnesses, c.FitsMatrix n) :
    ∃ K, assembleMatrix n stiffnesses = .ok K
      ∧ ∀ x y : Fin n → ℝ, ∑ k, ∑ l, x k * (K.get k).get l * y l
        = (stiffnesses.map fun c => c.pairing x y).sum := by
  have hstep (c : Contribution ℝ) (hc : c ∈ stiffnesses) (K : Square n ℝ) :
      ∃ K', scatterMatrix K c = .ok K' ∧ ∀ z : (Fin n → ℝ) × (Fin n → ℝ),
        ∑ k, ∑ l, z.1 k * (K'.get k).get l * z.2 l
          = ∑ k, ∑ l, z.1 k * (K.get k).get l * z.2 l + c.pairing z.1 z.2 := by
    obtain ⟨K', hK', hadded⟩ := (h c hc).scatterMatrix K
    exact ⟨K', hK', fun z => hadded z.1 z.2⟩
  obtain ⟨K, hK, hpairing⟩ := foldlM_add
    (fun (z : (Fin n → ℝ) × (Fin n → ℝ)) (K : Square n ℝ) =>
      ∑ k, ∑ l, z.1 k * (K.get k).get l * z.2 l) hstep Square.zero
  refine ⟨K, hK, fun x y => (hpairing (x, y)).trans ?_⟩
  simp only [Square.get_zero, mul_zero, zero_mul, Finset.sum_const_zero, zero_add]

/-- **Assembly is the adjoint of gathering.** Whatever the contributions are that fit the system,
they are assembled; the result multiplies as the contributions together multiply what their maps
gather; and it is the same in every order of the contributions. -/
theorem assembly_adjoint (hK : ∀ c ∈ stiffnesses, c.FitsMatrix n)
    (hF : ∀ c ∈ forces, c.FitsVector n) :
    (∃ K, assembleMatrix n stiffnesses = .ok K
        ∧ (∀ x y : Fin n → ℝ, ∑ k, ∑ l, x k * (K.get k).get l * y l
          = (stiffnesses.map fun c => c.pairing x y).sum)
        ∧ ∀ reordered, reordered.Perm stiffnesses → assembleMatrix n reordered = .ok K)
      ∧ ∃ F, assembleVector n forces = .ok F
        ∧ (∀ x : Fin n → ℝ, ∑ k, x k * F.get k = (forces.map fun c => c.work x).sum)
        ∧ ∀ reordered, reordered.Perm forces → assembleVector n reordered = .ok F := by
  obtain ⟨K, hassembled, hpairing⟩ := exists_assembleMatrix hK
  obtain ⟨F, hassembled', hwork⟩ := exists_assembleVector hF
  refine ⟨⟨K, hassembled, hpairing, fun reordered hperm => ?_⟩,
    F, hassembled', hwork, fun reordered hperm => ?_⟩
  · obtain ⟨K', hK', hpairing'⟩ :=
      exists_assembleMatrix fun c hc => hK c (hperm.mem_iff.mp hc)
    have hsame : K' = K := Square.ext_products fun x y => by
      rw [hpairing', hpairing, (hperm.map _).sum_eq]
    rw [hK', hsame]
  · obtain ⟨F', hF', hwork'⟩ :=
      exists_assembleVector fun c hc => hF c (hperm.mem_iff.mp hc)
    have hsame : F' = F := SystemVector.ext_products fun x => by
      rw [hwork', hwork, (hperm.map _).sum_eq]
    rw [hF', hsame]

omit [SeriesAngle] in
/-- Three components, the last of which is named three times: twice by its own number, in one map,
and once from the end. -/
theorem assembly_adjoint_aliased :
    letI : SeriesAngle := .exact
    let tie : Contribution ℝ := ⟨[some 0, some (-1)], ⟨[2, 2], [1, 2, 3, 4]⟩⟩
    let twice : Contribution ℝ := ⟨[some 2, some 2], ⟨[2, 2], [5, 6, 7, 8]⟩⟩
    let load : Contribution ℝ := ⟨[some (-1), some 2], ⟨[2], [3, 9]⟩⟩
    (∀ c ∈ [tie, twice], c.FitsMatrix 3) ∧ (∀ c ∈ [load], c.FitsVector 3)
      ∧ (∃ K, assembleMatrix 3 [tie, twice] = .ok K ∧ assembleMatrix 3 [twice, tie] = .ok K
        ∧ (K.get 2).get 2 = 30)
      ∧ ∃ F, assembleVector 3 [load] = .ok F ∧ F.get 2 = 12 := by
  let _ : SeriesAngle := .exact
  intro tie twice load
  have htie : tie.FitsMatrix 3 := ⟨⟨[0, -1], rfl, by decide⟩, rfl, rfl⟩
  have htwice : twice.FitsMatrix 3 := ⟨⟨[2, 2], rfl, by decide⟩, rfl, rfl⟩
  have hload : load.FitsVector 3 := ⟨⟨[-1, 2], rfl, by decide⟩, rfl, rfl⟩
  have hK : ∀ c ∈ [tie, twice], c.FitsMatrix 3 := by simp [htie, htwice]
  have hF : ∀ c ∈ [load], c.FitsVector 3 := by simp [hload]
  obtain ⟨⟨K, hassembled, hpairing, hreordered⟩, F, hassembled', hwork, -⟩ :=
    assembly_adjoint hK hF
  refine ⟨hK, hF, ⟨K, hassembled, hreordered _ (.swap _ _ _), ?_⟩, F, hassembled', ?_⟩
  · have hentry := hpairing (Pi.single 2 1) (Pi.single 2 1)
    simp only [Pi.single_apply, ite_mul, mul_ite, one_mul, mul_one, zero_mul, mul_zero,
      Finset.sum_ite_eq', Finset.mem_univ, if_true] at hentry
    have hsum : ([tie, twice].map fun c => c.pairing (n := 3) (Pi.single 2 1) (Pi.single 2 1)).sum
        = 4 + (5 + 6 + (7 + 8)) := by
      simp [tie, twice, Contribution.pairing, Contribution.gathered, valueAt, Fin.sum_univ_two]
    rw [hentry, hsum]
    norm_num
  · have hentry := hwork (Pi.single 2 1)
    simp only [Pi.single_apply, ite_mul, one_mul, zero_mul,
      Finset.sum_ite_eq', Finset.mem_univ, if_true] at hentry
    have hsum : ([load].map fun c => c.work (n := 3) (Pi.single 2 1)).sum = 3 + 9 := by
      simp [load, Contribution.work, Contribution.gathered, valueAt, Fin.sum_univ_two]
    rw [hentry, hsum]
    norm_num

end Supplied

end Corotation
