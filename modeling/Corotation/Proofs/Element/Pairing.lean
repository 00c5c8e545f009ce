import Corotation.Proofs.Element.Slots
/-!
# Forces paired with rates

The scalar product of two element vectors is the power of nodal forces in a rate
of the nodes. The transpose of a matrix is its adjoint, and a vector is known by
its products, so how far a matrix is from a symmetric one is a number for each
pair of rates (`ElementMatrix.asymmetry`), and adds up over the parts of a
stiffness.

Forces at two positions are balanced when they have neither a resultant nor a
moment. These are the forces without power in any rigid rate
(`isBalanced_iff`), so the transpose of a map of rates gives balanced forces
exactly where the map annihilates the rigid rates (`transpose_isBalanced_iff`).
-/

namespace Corotation

/-! ## The scalar product -/

namespace ElementVector

variable [SeriesAngle] (p q r : ElementVector ℝ) (s : ℝ)

theorem inner_eq : p.inner q
    = p.i.lin.dot q.i.lin + p.i.rot.dot q.i.rot + p.j.lin.dot q.j.lin + p.j.rot.dot q.j.rot := rfl

theorem inner_comm : p.inner q = q.inner p := by
  simp only [inner_eq, Vec3.dot_comm p.i.lin, Vec3.dot_comm p.i.rot, Vec3.dot_comm p.j.lin,
    Vec3.dot_comm p.j.rot]

@[simp] theorem inner_add : p.inner (q + r) = p.inner q + p.inner r := by
  simp [inner_eq]; ring

@[simp] theorem inner_sub : p.inner (q - r) = p.inner q - p.inner r := by
  simp [inner_eq]; ring

@[simp] theorem inner_smul : p.inner (s • q) = s * p.inner q := by
  simp [inner_eq]; ring

@[simp] theorem inner_zero : p.inner 0 = 0 := by simp [inner_eq]

@[simp] theorem add_inner : (p + q).inner r = p.inner r + q.inner r := by
  simp [inner_eq]; ring

variable {p q}

/-- An element vector is known by its scalar products. -/
theorem ext_inner (h : ∀ x : ElementVector ℝ, x.inner p = x.inner q) : p = q := by
  refine Slots.ext_slots ?_ ?_ ?_ ?_ <;> refine Vec3.ext_dot fun v => ?_
  · simpa [inner_eq] using h ⟨⟨v, 0⟩, ⟨0, 0⟩⟩
  · simpa [inner_eq] using h ⟨⟨0, v⟩, ⟨0, 0⟩⟩
  · simpa [inner_eq] using h ⟨⟨0, 0⟩, ⟨v, 0⟩⟩
  · simpa [inner_eq] using h ⟨⟨0, 0⟩, ⟨0, v⟩⟩

end ElementVector

/-- A three-rowed matrix and its transpose are adjoint. -/
theorem Covectors.inner_applyTranspose [SeriesAngle] (c : Covectors ℝ) (v : Vec3 ℝ)
    (q : ElementVector ℝ) : (c.applyTranspose v).inner q = v.dot (c.apply q) := by
  simp only [ElementVector.inner_eq, applyTranspose_i_lin, applyTranspose_i_rot,
    applyTranspose_j_lin, applyTranspose_j_rot, apply_eq, Vec3.dot_add, Mat3.dot_apply]

/-! ## Asymmetry -/

namespace ElementMatrix

variable [SeriesAngle] (a b k : ElementMatrix ℝ) (p q x y : ElementVector ℝ)

/-- **The transpose is the adjoint.** -/
theorem inner_apply : p.inner (apply a q) = (apply a.transpose p).inner q := by
  simp only [transpose_apply, ElementVector.add_inner, Covectors.inner_applyTranspose]
  rfl

/-- How far a matrix is from a symmetric one, for a pair of vectors. -/
noncomputable def asymmetry : ℝ := x.inner (apply k y) - y.inner (apply k x)

/-- It is the pairing with the matrix less its transpose. -/
theorem asymmetry_eq : asymmetry k x y = x.inner (apply (sub k k.transpose) y) := by
  rw [sub_apply, ElementVector.inner_sub, inner_apply k.transpose, transpose_transpose,
    ElementVector.inner_comm _ y]
  rfl

@[simp] theorem asymmetry_add :
    asymmetry (add a b) x y = asymmetry a x y + asymmetry b x y := by
  simp only [asymmetry, add_apply, ElementVector.inner_add]
  ring

@[simp] theorem asymmetry_sub :
    asymmetry (sub a b) x y = asymmetry a x y - asymmetry b x y := by
  simp only [asymmetry, sub_apply, ElementVector.inner_sub]
  ring

/-- A congruence is as far from a symmetric matrix as the matrix in its middle
is on the images. -/
@[simp] theorem asymmetry_congruence :
    asymmetry (congruence a k) x y = asymmetry k (apply a x) (apply a y) := by
  simp only [asymmetry, congruence_apply, inner_apply a.transpose, transpose_transpose]

/-- Weights weigh symmetrically. -/
@[simp] theorem asymmetry_diagonal (w : ElementVector ℝ) : asymmetry (diagonal w) x y = 0 := by
  rw [asymmetry, diagonal_apply, diagonal_apply]
  simp [ElementVector.inner_eq, Vec3.dot_eq]
  ring

/-- A matrix is symmetric exactly if no pair of vectors tells it from its
transpose. -/
theorem transpose_eq_self_iff : k.transpose = k ↔ ∀ x y, asymmetry k x y = 0 := by
  refine ⟨fun h x y => ?_, fun h => ext_apply fun y => ElementVector.ext_inner fun x => ?_⟩
  · rw [asymmetry, inner_apply, h, ElementVector.inner_comm, sub_self]
  · have hxy := h x y
    rw [asymmetry_eq, sub_apply, ElementVector.inner_sub] at hxy
    exact (sub_eq_zero.mp hxy).symm

/-- The block diagonal with two matrices in the rotational slots. -/
noncomputable def rotational (m : Ends (Mat3 ℝ)) : ElementMatrix ℝ :=
  ⟨⟨⟨⟨0, 0⟩, ⟨0, 0⟩⟩, ⟨⟨0, m.i⟩, ⟨0, 0⟩⟩⟩,
   ⟨⟨⟨0, 0⟩, ⟨0, 0⟩⟩, ⟨⟨0, 0⟩, ⟨0, m.j⟩⟩⟩⟩

theorem rotational_apply (m : Ends (Mat3 ℝ)) : apply (rotational m) x
    = ⟨⟨0, m.i.apply x.i.rot⟩, ⟨0, m.j.apply x.j.rot⟩⟩ := by
  refine Slots.ext_slots ?_ ?_ ?_ ?_ <;> simp [rotational, Covectors.apply_eq]

/-- A matrix whose asymmetry is that of two moments differs from its transpose by
their block diagonal. -/
theorem sub_transpose_eq {k : ElementMatrix ℝ} {m : Ends (Vec3 ℝ)}
    (h : ∀ x y, asymmetry k x y
      = -(x.i.rot.dot (m.i.cross y.i.rot) + x.j.rot.dot (m.j.cross y.j.rot))) :
    k - k.transpose = -rotational (m.map Mat3.skew) := by
  refine ext_apply fun y => ElementVector.ext_inner fun x => ?_
  have hneg : apply (-rotational (m.map Mat3.skew)) y
      = -apply (rotational (m.map Mat3.skew)) y := by
    refine Slots.ext_slots ?_ ?_ ?_ ?_ <;> simp [Covectors.apply_eq] <;> abel
  have hxy := h x y
  rw [asymmetry_eq] at hxy
  rw [hneg, rotational_apply]
  refine hxy.trans ?_
  simp [ElementVector.inner_eq, Ends.map]
  ring

theorem rotational_eq_zero_iff {m : Ends (Mat3 ℝ)} : rotational m = 0 ↔ m.i = 0 ∧ m.j = 0 := by
  refine ⟨fun h => ⟨congrArg (fun k : ElementMatrix ℝ => k.i.rot.i.rot) h,
    congrArg (fun k : ElementMatrix ℝ => k.j.rot.j.rot) h⟩, fun ⟨hi, hj⟩ => ?_⟩
  rw [rotational, hi, hj]
  rfl

end ElementMatrix

/-! ## Balance -/

namespace ElementVector

variable [SeriesAngle] {x : Ends (Vec3 ℝ)} {f : ElementVector ℝ}

/-- The rate of two nodes at the positions `x` in a rigid motion with the spin
`w`. -/
noncomputable def rigid (x : Ends (Vec3 ℝ)) (c w : Vec3 ℝ) : ElementVector ℝ :=
  ⟨⟨c + w.cross x.i, w⟩, ⟨c + w.cross x.j, w⟩⟩

theorem rigid_translation (x : Ends (Vec3 ℝ)) (c : Vec3 ℝ) :
    rigid x c 0 = ⟨⟨c, 0⟩, ⟨c, 0⟩⟩ := by
  simp [rigid]

theorem rigid_rotation (x : Ends (Vec3 ℝ)) (w : Vec3 ℝ) :
    rigid x 0 w = ⟨⟨w.cross x.i, w⟩, ⟨w.cross x.j, w⟩⟩ := by
  simp [rigid]

/-- The sum of the forces at both ends. -/
noncomputable def resultant (f : ElementVector ℝ) : Vec3 ℝ := f.i.lin + f.j.lin

/-- Forces and moments at the positions `x` with no resultant and no moment. -/
structure IsBalanced (x : Ends (Vec3 ℝ)) (f : ElementVector ℝ) : Prop where
  force : f.resultant = 0
  moment : f.i.rot + f.j.rot + (x.j - x.i).cross f.j.lin = 0

section Resultant

variable (p q : ElementVector ℝ) (m : Mat3 ℝ) (s : ℝ)

@[simp] theorem resultant_add : (p + q).resultant = p.resultant + q.resultant :=
  add_add_add_comm _ _ _ _

@[simp] theorem resultant_sub : (p - q).resultant = p.resultant - q.resultant :=
  (add_sub_add_comm _ _ _ _).symm

@[simp] theorem resultant_smul : (s • p).resultant = s • p.resultant := (smul_add _ _ _).symm

@[simp] theorem resultant_map : resultant (Slots.map m.apply p) = m.apply p.resultant :=
  (Mat3.apply_add _ _ _).symm

end Resultant

/-- The power of forces in a rigid rate. -/
theorem inner_rigid (x : Ends (Vec3 ℝ)) (f : ElementVector ℝ) (c w : Vec3 ℝ) :
    f.inner (rigid x c w) = (c + w.cross x.i).dot f.resultant
      + w.dot (f.i.rot + f.j.rot + (x.j - x.i).cross f.j.lin) := by
  simp [inner_eq, rigid, resultant, Vec3.dot_eq]
  ring

/-- **Balanced forces are those without power in any rigid rate.** -/
theorem isBalanced_iff : IsBalanced x f ↔ ∀ c w, f.inner (rigid x c w) = 0 := by
  refine ⟨fun h c w => ?_, fun h => ?_⟩
  · rw [inner_rigid, h.force, h.moment, Vec3.dot_zero, Vec3.dot_zero, add_zero]
  · have hforce : f.resultant = 0 := Vec3.ext_dot fun v => by
      have := h v 0
      rwa [inner_rigid, Vec3.zero_cross, add_zero, Vec3.zero_dot, add_zero,
        ← Vec3.dot_zero v] at this
    refine ⟨hforce, Vec3.ext_dot fun v => ?_⟩
    have := h 0 v
    rwa [inner_rigid, hforce, Vec3.dot_zero, zero_add, ← Vec3.dot_zero v] at this

/-- **A map of rates gives balanced forces** by its transpose exactly if it
annihilates the rigid rates. -/
theorem transpose_isBalanced_iff (T : ElementMatrix ℝ) :
    (∀ p, IsBalanced x (ElementMatrix.apply T.transpose p))
      ↔ ∀ c w, ElementMatrix.apply T (rigid x c w) = 0 := by
  simp only [isBalanced_iff, ← ElementMatrix.inner_apply]
  refine ⟨fun h c w => ext_inner fun p => ?_, fun h p c w => ?_⟩
  · rw [h p c w, inner_zero]
  · rw [h c w, inner_zero]

end ElementVector

end Corotation
