import Corotation.Element.Slots
import Corotation.Proofs.Space.Rate
/-!
# Element vectors and matrices over the real numbers

Pairs over the ends and pairs over the two parts are vector spaces where
their entries are, so element vectors and element matrices are. A matrix
acts slot by slot; every operation of the block algebra is given here by its
action, and a matrix is known by it (`ElementMatrix.ext_apply`).

`ElementMatrix.turning` is the block diagonal of one matrix, the map that a
rigid rotation of the element induces on nodal vectors.
-/

open Topology

namespace Corotation

/-! ## Pairs -/

namespace Ends

variable {β : Type}

instance instAdd [Add β] : Add (Ends β) := ⟨zipWith (· + ·)⟩
instance instSub [Sub β] : Sub (Ends β) := ⟨zipWith (· - ·)⟩
instance instNeg [Neg β] : Neg (Ends β) := ⟨map (- ·)⟩
instance instZero [Zero β] : Zero (Ends β) := ⟨both 0⟩
instance instSMul [SMul ℝ β] : SMul ℝ (Ends β) := ⟨fun s => map (s • ·)⟩

section Entries

variable (e e' : Ends β) (s : ℝ)

@[simp] theorem add_i [Add β] : (e + e').i = e.i + e'.i := rfl
@[simp] theorem add_j [Add β] : (e + e').j = e.j + e'.j := rfl
@[simp] theorem sub_i [Sub β] : (e - e').i = e.i - e'.i := rfl
@[simp] theorem sub_j [Sub β] : (e - e').j = e.j - e'.j := rfl
@[simp] theorem neg_i [Neg β] : (-e).i = -e.i := rfl
@[simp] theorem neg_j [Neg β] : (-e).j = -e.j := rfl
@[simp] theorem zero_i [Zero β] : (0 : Ends β).i = 0 := rfl
@[simp] theorem zero_j [Zero β] : (0 : Ends β).j = 0 := rfl
@[simp] theorem smul_i [SMul ℝ β] : (s • e).i = s • e.i := rfl
@[simp] theorem smul_j [SMul ℝ β] : (s • e).j = s • e.j := rfl

end Entries

noncomputable instance instAddCommGroup [AddCommGroup β] : AddCommGroup (Ends β) where
  add_assoc a b c := by ext1 <;> simp [add_assoc]
  zero_add a := by ext1 <;> simp
  add_zero a := by ext1 <;> simp
  add_comm a b := by ext1 <;> simp [add_comm]
  neg_add_cancel a := by ext1 <;> simp
  sub_eq_add_neg a b := by ext1 <;> simp [sub_eq_add_neg]
  nsmul := nsmulRec
  zsmul := zsmulRec

noncomputable instance instModule [AddCommGroup β] [Module ℝ β] : Module ℝ (Ends β) where
  one_smul a := by ext1 <;> simp
  mul_smul s t a := by ext1 <;> simp [mul_smul]
  smul_zero s := by ext1 <;> simp
  smul_add s a b := by ext1 <;> simp
  add_smul s t a := by ext1 <;> simp [add_smul]
  zero_smul a := by ext1 <;> simp

end Ends

namespace Screw

variable {β : Type}

instance instAdd [Add β] : Add (Screw β) := ⟨zipWith (· + ·)⟩
instance instSub [Sub β] : Sub (Screw β) := ⟨zipWith (· - ·)⟩
instance instNeg [Neg β] : Neg (Screw β) := ⟨map (- ·)⟩
instance instZero [Zero β] : Zero (Screw β) := ⟨both 0⟩
instance instSMul [SMul ℝ β] : SMul ℝ (Screw β) := ⟨fun s => map (s • ·)⟩

section Entries

variable (p q : Screw β) (s : ℝ)

@[simp] theorem add_lin [Add β] : (p + q).lin = p.lin + q.lin := rfl
@[simp] theorem add_rot [Add β] : (p + q).rot = p.rot + q.rot := rfl
@[simp] theorem sub_lin [Sub β] : (p - q).lin = p.lin - q.lin := rfl
@[simp] theorem sub_rot [Sub β] : (p - q).rot = p.rot - q.rot := rfl
@[simp] theorem neg_lin [Neg β] : (-p).lin = -p.lin := rfl
@[simp] theorem neg_rot [Neg β] : (-p).rot = -p.rot := rfl
@[simp] theorem zero_lin [Zero β] : (0 : Screw β).lin = 0 := rfl
@[simp] theorem zero_rot [Zero β] : (0 : Screw β).rot = 0 := rfl
@[simp] theorem smul_lin [SMul ℝ β] : (s • p).lin = s • p.lin := rfl
@[simp] theorem smul_rot [SMul ℝ β] : (s • p).rot = s • p.rot := rfl

end Entries

noncomputable instance instAddCommGroup [AddCommGroup β] : AddCommGroup (Screw β) where
  add_assoc a b c := by ext1 <;> simp [add_assoc]
  zero_add a := by ext1 <;> simp
  add_zero a := by ext1 <;> simp
  add_comm a b := by ext1 <;> simp [add_comm]
  neg_add_cancel a := by ext1 <;> simp
  sub_eq_add_neg a b := by ext1 <;> simp [sub_eq_add_neg]
  nsmul := nsmulRec
  zsmul := zsmulRec

noncomputable instance instModule [AddCommGroup β] [Module ℝ β] : Module ℝ (Screw β) where
  one_smul a := by ext1 <;> simp
  mul_smul s t a := by ext1 <;> simp [mul_smul]
  smul_zero s := by ext1 <;> simp
  smul_add s a b := by ext1 <;> simp
  add_smul s t a := by ext1 <;> simp [add_smul]
  zero_smul a := by ext1 <;> simp

end Screw

/-! ## Slots -/

namespace Slots

variable {β γ δ : Type} (f : β → γ) (g : β → γ → δ) (s : Slots β) (r : Slots γ)

@[simp] theorem map_i_lin : (Slots.map f s).i.lin = f s.i.lin := rfl
@[simp] theorem map_i_rot : (Slots.map f s).i.rot = f s.i.rot := rfl
@[simp] theorem map_j_lin : (Slots.map f s).j.lin = f s.j.lin := rfl
@[simp] theorem map_j_rot : (Slots.map f s).j.rot = f s.j.rot := rfl

@[simp] theorem zipWith_i_lin : (Slots.zipWith g s r).i.lin = g s.i.lin r.i.lin := rfl
@[simp] theorem zipWith_i_rot : (Slots.zipWith g s r).i.rot = g s.i.rot r.i.rot := rfl
@[simp] theorem zipWith_j_lin : (Slots.zipWith g s r).j.lin = g s.j.lin r.j.lin := rfl
@[simp] theorem zipWith_j_rot : (Slots.zipWith g s r).j.rot = g s.j.rot r.j.rot := rfl

/-- Two tuples that agree in every slot are equal. -/
theorem ext_slots {s s' : Slots β} (hi : s.i.lin = s'.i.lin) (hr : s.i.rot = s'.i.rot)
    (hj : s.j.lin = s'.j.lin) (hs : s.j.rot = s'.j.rot) : s = s' :=
  Ends.ext (Screw.ext hi hr) (Screw.ext hj hs)

end Slots

namespace ElementVector

variable [SeriesAngle] (p q : ElementVector ℝ)

@[simp] theorem add_eq : ElementVector.add p q = p + q := rfl
@[simp] theorem sub_eq : ElementVector.sub p q = p - q := rfl

@[simp] theorem map_apply_zero (m : Mat3 ℝ) : Slots.map m.apply (0 : ElementVector ℝ) = 0 :=
  Slots.ext_slots (Mat3.apply_zero m) (Mat3.apply_zero m) (Mat3.apply_zero m) (Mat3.apply_zero m)

/-- The sum of the products of the components. -/
noncomputable def inner (p q : ElementVector ℝ) : ℝ :=
  p.i.lin.dot q.i.lin + p.i.rot.dot q.i.rot + p.j.lin.dot q.j.lin + p.j.rot.dot q.j.rot

end ElementVector

namespace Displacement

variable [SeriesAngle] (d d' : Displacement ℝ)

@[simp] theorem sub_eq : Displacement.sub d d' = d - d' := rfl
@[simp] theorem zero_eq : (Displacement.zero : Displacement ℝ) = 0 := rfl

end Displacement

/-! ## Three-rowed matrices -/

namespace Covectors

variable [SeriesAngle] (a b : Covectors ℝ) (m : Mat3 ℝ) (p q : ElementVector ℝ) (v : Vec3 ℝ) (s : ℝ)

theorem apply_eq : a.apply p = a.i.lin.apply p.i.lin + a.i.rot.apply p.i.rot
    + a.j.lin.apply p.j.lin + a.j.rot.apply p.j.rot := rfl

@[simp] theorem applyTranspose_i_lin :
    (a.applyTranspose v).i.lin = a.i.lin.transpose.apply v := rfl
@[simp] theorem applyTranspose_i_rot :
    (a.applyTranspose v).i.rot = a.i.rot.transpose.apply v := rfl
@[simp] theorem applyTranspose_j_lin :
    (a.applyTranspose v).j.lin = a.j.lin.transpose.apply v := rfl
@[simp] theorem applyTranspose_j_rot :
    (a.applyTranspose v).j.rot = a.j.rot.transpose.apply v := rfl

@[simp] theorem zero_apply : apply (Slots.all .zero) p = 0 := by
  simp [apply_eq, Slots.all, Ends.both, Screw.both]

@[simp] theorem add_apply : (Covectors.add a b).apply p = a.apply p + b.apply p := by
  simp only [apply_eq, Covectors.add, Slots.zipWith_i_lin, Slots.zipWith_i_rot,
    Slots.zipWith_j_lin, Slots.zipWith_j_rot, Mat3.add_apply]
  abel

@[simp] theorem sub_apply : (Covectors.sub a b).apply p = a.apply p - b.apply p := by
  simp only [apply_eq, Covectors.sub, Slots.zipWith_i_lin, Slots.zipWith_i_rot,
    Slots.zipWith_j_lin, Slots.zipWith_j_rot, Mat3.sub_apply]
  abel

@[simp] theorem apply_add : a.apply (p + q) = a.apply p + a.apply q := by
  simp only [apply_eq, Ends.add_i, Ends.add_j, Screw.add_lin, Screw.add_rot, Mat3.apply_add]
  abel

@[simp] theorem apply_smul : a.apply (s • p) = s • a.apply p := by
  simp only [apply_eq, Ends.smul_i, Ends.smul_j, Screw.smul_lin, Screw.smul_rot, Mat3.apply_smul,
    smul_add]

@[simp] theorem scale_apply : (Covectors.scale s a).apply p = s • a.apply p := by
  simp [apply_eq, Covectors.scale]

@[simp] theorem mulLeft_apply : (mulLeft m a).apply p = m.apply (a.apply p) := by
  simp [apply_eq, mulLeft]

/-- The block diagonal acts in every slot. -/
@[simp] theorem mulDiagonal_apply :
    (mulDiagonal a m).apply p = a.apply (Slots.map m.apply p) := by
  simp [apply_eq, mulDiagonal]

@[simp] theorem sub_applyTranspose :
    (Covectors.sub a b).applyTranspose v = a.applyTranspose v - b.applyTranspose v := by
  refine Slots.ext_slots ?_ ?_ ?_ ?_ <;> simp [Covectors.sub]

@[simp] theorem applyTranspose_add (w : Vec3 ℝ) :
    a.applyTranspose (v + w) = a.applyTranspose v + a.applyTranspose w := by
  refine Slots.ext_slots ?_ ?_ ?_ ?_ <;> simp

@[simp] theorem applyTranspose_zero : a.applyTranspose 0 = 0 := by
  refine Slots.ext_slots ?_ ?_ ?_ ?_ <;> simp

@[simp] theorem mulLeft_applyTranspose :
    (mulLeft m a).applyTranspose v = a.applyTranspose (m.transpose.apply v) := by
  refine Slots.ext_slots ?_ ?_ ?_ ?_ <;> simp [mulLeft]

@[simp] theorem mulDiagonal_applyTranspose :
    (mulDiagonal a m).applyTranspose v = Slots.map m.transpose.apply (a.applyTranspose v) := by
  refine Slots.ext_slots ?_ ?_ ?_ ?_ <;> simp [mulDiagonal]

variable {a b}

/-- A three-rowed matrix is known by its action. -/
theorem ext_apply (h : ∀ p, a.apply p = b.apply p) : a = b := by
  refine Slots.ext_slots ?_ ?_ ?_ ?_ <;> refine Mat3.ext_apply fun v => ?_
  · simpa [apply_eq] using h ⟨⟨v, 0⟩, ⟨0, 0⟩⟩
  · simpa [apply_eq] using h ⟨⟨0, v⟩, ⟨0, 0⟩⟩
  · simpa [apply_eq] using h ⟨⟨0, 0⟩, ⟨v, 0⟩⟩
  · simpa [apply_eq] using h ⟨⟨0, 0⟩, ⟨0, v⟩⟩

end Covectors

/-! ## Element matrices -/

namespace ElementMatrix

variable [SeriesAngle] (a b k : ElementMatrix ℝ) (m : Mat3 ℝ) (p q x : ElementVector ℝ) (s : ℝ)

@[simp] theorem apply_i_lin : (apply a p).i.lin = Covectors.apply a.i.lin p := rfl
@[simp] theorem apply_i_rot : (apply a p).i.rot = Covectors.apply a.i.rot p := rfl
@[simp] theorem apply_j_lin : (apply a p).j.lin = Covectors.apply a.j.lin p := rfl
@[simp] theorem apply_j_rot : (apply a p).j.rot = Covectors.apply a.j.rot p := rfl

@[simp] theorem add_apply : apply (add a b) p = apply a p + apply b p := by
  refine Slots.ext_slots ?_ ?_ ?_ ?_ <;> exact Covectors.add_apply _ _ _

@[simp] theorem sub_apply : apply (sub a b) p = apply a p - apply b p := by
  refine Slots.ext_slots ?_ ?_ ?_ ?_ <;> exact Covectors.sub_apply _ _ _

@[simp] theorem apply_add : apply a (p + q) = apply a p + apply a q := by
  refine Slots.ext_slots ?_ ?_ ?_ ?_ <;> exact Covectors.apply_add _ _ _

@[simp] theorem apply_smul : apply a (s • p) = s • apply a p := by
  refine Slots.ext_slots ?_ ?_ ?_ ?_ <;> exact Covectors.apply_smul _ _ _

@[simp] theorem apply_zero : apply a 0 = 0 := by
  have := apply_smul a 0 0
  rwa [zero_smul, zero_smul] at this

/-- A row of blocks times a matrix, summand by summand. -/
theorem rowMul_eq (row : Covectors ℝ) : rowMul row b = Covectors.add (Covectors.add (Covectors.add
    (Covectors.mulLeft row.i.lin b.i.lin) (Covectors.mulLeft row.i.rot b.i.rot))
    (Covectors.mulLeft row.j.lin b.j.lin)) (Covectors.mulLeft row.j.rot b.j.rot) := rfl

/-- A row of blocks times a matrix acts through the matrix. -/
theorem rowMul_apply (row : Covectors ℝ) :
    Covectors.apply (rowMul row b) p = row.apply (apply b p) := by
  rw [rowMul_eq]
  simp only [Covectors.add_apply, Covectors.mulLeft_apply]
  rfl

/-- **A product acts as its factors do**, the right one first. -/
@[simp] theorem mul_apply : apply (mul a b) p = apply a (apply b p) := by
  refine Slots.ext_slots ?_ ?_ ?_ ?_ <;> exact rowMul_apply _ _ _

/-- The transpose sums the transposes of the rows. -/
theorem transpose_apply : apply a.transpose p =
    Covectors.applyTranspose a.i.lin p.i.lin + Covectors.applyTranspose a.i.rot p.i.rot
      + Covectors.applyTranspose a.j.lin p.j.lin + Covectors.applyTranspose a.j.rot p.j.rot := rfl

omit [SeriesAngle] in
@[simp] theorem transpose_transpose : transpose (transpose a) = a := rfl

/-- The transpose of a product. -/
@[simp] theorem transpose_mul_apply :
    apply (mul a b).transpose p = apply b.transpose (apply a.transpose p) := by
  have hrow (row : Covectors ℝ) (v : Vec3 ℝ) :
      Covectors.applyTranspose (rowMul row b) v = apply b.transpose (row.applyTranspose v) := by
    refine Slots.ext_slots ?_ ?_ ?_ ?_ <;>
      simp [rowMul_eq, Covectors.add, Covectors.mulLeft, transpose_apply]
  rw [transpose_apply, transpose_apply a]
  simp only [apply_add, ← hrow]
  rfl

/-- A congruence acts through its three factors. -/
theorem congruence_apply : apply (congruence a k) p
    = apply a.transpose (apply k (apply a p)) := by
  rw [congruence, mul_apply, mul_apply]

/-- The product of the transpose of one three-rowed matrix and another. -/
theorem transposeMul_apply (c c' : Covectors ℝ) :
    apply (c.transposeMul c') p = c.applyTranspose (c'.apply p) := by
  refine Slots.ext_slots ?_ ?_ ?_ ?_ <;> exact Covectors.mulLeft_apply _ _ _

/-- A matrix of rank one. -/
theorem outer_apply : apply (outer p q) x = q.inner x • p := by
  have hrow (v : Vec3 ℝ) : Covectors.apply (Slots.map (Mat3.outer v) q) x = q.inner x • v := by
    simp only [Covectors.apply_eq, Slots.map_i_lin, Slots.map_i_rot, Slots.map_j_lin,
      Slots.map_j_rot, Mat3.outer_apply, ElementVector.inner]
    module
  exact Slots.ext_slots (hrow _) (hrow _) (hrow _) (hrow _)

/-- Scaled rows scale the components of the result. -/
theorem scaleRows_apply (w : ElementVector ℝ) : apply (scaleRows w a) p
    = Slots.zipWith (fun v u => (Mat3.diagonal v).apply u) w (apply a p) := by
  refine Slots.ext_slots ?_ ?_ ?_ ?_ <;> exact Covectors.mulLeft_apply _ _ _

/-- **A matrix is known by its action.** -/
theorem ext_apply {a b : ElementMatrix ℝ} (h : ∀ p, apply a p = apply b p) : a = b := by
  refine Slots.ext_slots ?_ ?_ ?_ ?_ <;> refine Covectors.ext_apply fun p => ?_
  · exact congrArg (fun y : ElementVector ℝ => y.i.lin) (h p)
  · exact congrArg (fun y : ElementVector ℝ => y.i.rot) (h p)
  · exact congrArg (fun y : ElementVector ℝ => y.j.lin) (h p)
  · exact congrArg (fun y : ElementVector ℝ => y.j.rot) (h p)

/-! ## Block diagonals -/

/-- The block diagonal of one three-by-three matrix. -/
noncomputable def turning (m : Mat3 ℝ) : ElementMatrix ℝ :=
  ⟨⟨⟨⟨m, 0⟩, ⟨0, 0⟩⟩, ⟨⟨0, m⟩, ⟨0, 0⟩⟩⟩,
   ⟨⟨⟨0, 0⟩, ⟨m, 0⟩⟩, ⟨⟨0, 0⟩, ⟨0, m⟩⟩⟩⟩

@[simp] theorem turning_apply : apply (turning m) p = Slots.map m.apply p := by
  refine Slots.ext_slots ?_ ?_ ?_ ?_ <;> simp [turning, Covectors.apply_eq]

@[simp] theorem turning_transpose : (turning m).transpose = turning m.transpose := rfl

/-- The diagonal matrix of twelve weights. -/
noncomputable def diagonal (w : ElementVector ℝ) : ElementMatrix ℝ :=
  ⟨⟨⟨⟨.diagonal w.i.lin, 0⟩, ⟨0, 0⟩⟩, ⟨⟨0, .diagonal w.i.rot⟩, ⟨0, 0⟩⟩⟩,
   ⟨⟨⟨0, 0⟩, ⟨.diagonal w.j.lin, 0⟩⟩, ⟨⟨0, 0⟩, ⟨0, .diagonal w.j.rot⟩⟩⟩⟩

theorem diagonal_apply (w : ElementVector ℝ) : apply (diagonal w) p
    = Slots.zipWith (fun v u => (Mat3.diagonal v).apply u) w p := by
  refine Slots.ext_slots ?_ ?_ ?_ ?_ <;> simp [diagonal, Covectors.apply_eq]

/-- No weights. -/
theorem diagonal_zero_apply : apply (diagonal 0) p = 0 := by
  rw [diagonal_apply]
  exact Slots.ext_slots (Mat3.zero_apply _) (Mat3.zero_apply _) (Mat3.zero_apply _)
    (Mat3.zero_apply _)

/-- Scaled rows are those of a product with a diagonal matrix. -/
theorem scaleRows_eq (w : ElementVector ℝ) : scaleRows w a = mul (diagonal w) a := by
  refine ext_apply fun p => ?_
  rw [scaleRows_apply, mul_apply, diagonal_apply]

end ElementMatrix

/-! ## Rates -/

/-- A moving element vector has the rate `p` at the parameter `t`: every slot
has its rate there. -/
structure ElementVector.HasRate (f : ℝ → ElementVector ℝ) (p : ElementVector ℝ) (t : ℝ) :
    Prop where
  /-- The linear part of the first end. -/
  i_lin : Vec3.HasRate (fun s => (f s).i.lin) p.i.lin t
  /-- The rotational part of the first end. -/
  i_rot : Vec3.HasRate (fun s => (f s).i.rot) p.i.rot t
  /-- The linear part of the second end. -/
  j_lin : Vec3.HasRate (fun s => (f s).j.lin) p.j.lin t
  /-- The rotational part of the second end. -/
  j_rot : Vec3.HasRate (fun s => (f s).j.rot) p.j.rot t

namespace ElementVector

variable {f g : ℝ → ElementVector ℝ} {p q : ElementVector ℝ} {t : ℝ}

theorem HasRate.congr_rate (h : HasRate f p t) (hq : p = q) : HasRate f q t := hq ▸ h

theorem HasRate.congr_of_eventuallyEq (h : HasRate f p t) (hg : g =ᶠ[𝓝 t] f) : HasRate g p t where
  i_lin := h.i_lin.congr_of_eventuallyEq (hg.mono fun _ hs => congrArg (·.i.lin) hs)
  i_rot := h.i_rot.congr_of_eventuallyEq (hg.mono fun _ hs => congrArg (·.i.rot) hs)
  j_lin := h.j_lin.congr_of_eventuallyEq (hg.mono fun _ hs => congrArg (·.j.lin) hs)
  j_rot := h.j_rot.congr_of_eventuallyEq (hg.mono fun _ hs => congrArg (·.j.rot) hs)

variable [SeriesAngle]

theorem HasRate.const (p : ElementVector ℝ) (t : ℝ) : HasRate (fun _ => p) 0 t :=
  ⟨.const p.i.lin t, .const p.i.rot t, .const p.j.lin t, .const p.j.rot t⟩

theorem HasRate.add (hf : HasRate f p t) (hg : HasRate g q t) :
    HasRate (fun s => f s + g s) (p + q) t :=
  ⟨hf.i_lin.add hg.i_lin, hf.i_rot.add hg.i_rot, hf.j_lin.add hg.j_lin, hf.j_rot.add hg.j_rot⟩

theorem HasRate.sub (hf : HasRate f p t) (hg : HasRate g q t) :
    HasRate (fun s => f s - g s) (p - q) t :=
  ⟨hf.i_lin.sub hg.i_lin, hf.i_rot.sub hg.i_rot, hf.j_lin.sub hg.j_lin, hf.j_rot.sub hg.j_rot⟩

/-- The image of a moving vector under a fixed matrix. -/
theorem HasRate.apply (hf : HasRate f p t) (a : ElementMatrix ℝ) :
    HasRate (fun s => ElementMatrix.apply a (f s)) (ElementMatrix.apply a p) t := by
  have hrow (c : Covectors ℝ) : Vec3.HasRate (fun s => c.apply (f s)) (c.apply p) t := by
    have hblock {v : ℝ → Vec3 ℝ} {v' : Vec3 ℝ} (m : Mat3 ℝ) (hv : Vec3.HasRate v v' t) :
        Vec3.HasRate (fun s => m.apply (v s)) (m.apply v') t :=
      ((Mat3.HasRate.const m t).apply hv).congr_rate (by rw [Mat3.zero_apply, zero_add])
    exact (((hblock c.i.lin hf.i_lin).add (hblock c.i.rot hf.i_rot)).add
      (hblock c.j.lin hf.j_lin)).add (hblock c.j.rot hf.j_rot)
  exact ⟨hrow _, hrow _, hrow _, hrow _⟩

end ElementVector

end Corotation
