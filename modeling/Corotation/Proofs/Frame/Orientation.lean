import Corotation.Proofs.Frame.Geometry
/-!
# The orientation that a reference vector fixes

The local axes of an element are a rotation with the first axis along the chord, the second one
across the reference vector, and the third on its side. There is one such rotation at most
(`IsReferenceFrame.eq_referenceAxes`), and it is the orientation of the chord, wherever that is
accepted (`orientation_isReferenceFrame_iff`).

What is asked of the axes does not change with the size of the reference vector, nor with its part
along the chord. Only the acceptance does, and so an accepted orientation is the same
(`orientation_determined`).
-/

namespace Corotation

/-- The axes of a chord with a reference vector. -/
structure IsReferenceFrame [SeriesAngle] (dX v : Vec3 ℝ) (m : Mat3 ℝ) : Prop where
  /-- The axes are orthonormal and right-handed. -/
  isRotation : m.IsRotation
  /-- The first axis has the direction of the chord. -/
  along : m.c1 = Triad.direction dX
  /-- The second axis is across the reference vector. -/
  across : m.c2.dot v = 0
  /-- The third axis is on the side of the reference vector. -/
  side : 0 < m.c3.dot v

variable [SeriesAngle] {tol : Tolerances ℝ} {dX v : Vec3 ℝ} {m m' : Mat3 ℝ} {element : Label}

/-- The axes made by products: the second of the reference vector with the direction of the chord,
the third of the first two. -/
noncomputable def referenceAxes (dX v : Vec3 ℝ) : Mat3 ℝ :=
  .ofColumns (Triad.direction dX) (Triad.direction (v.cross (Triad.direction dX)))
    ((Triad.direction dX).cross (Triad.direction (v.cross (Triad.direction dX))))

/-! ## Directions -/

/-- Lengthening a vector keeps its direction. -/
theorem Triad.direction_smul {s : ℝ} (hs : 0 < s) (u : Vec3 ℝ) :
    direction (s • u) = direction u := by
  rw [direction, direction, Vec3.norm_smul, abs_of_pos hs, smul_smul, mul_inv]
  congr 1
  field_simp

/-- A unit vector is its own direction, also when it is lengthened. -/
theorem Triad.direction_smul_of_dot {s : ℝ} (hs : 0 < s) {u : Vec3 ℝ} (hu : u.dot u = 1) :
    direction (s • u) = u := by
  rw [direction_smul hs, direction, Vec3.norm_eq, hu, Real.sqrt_one, inv_one, one_smul]

namespace IsReferenceFrame

/-- Seen from its axes, a reference vector has no part along the second. -/
theorem cross_first (h : IsReferenceFrame dX v m) : v.cross m.c1 = m.c3.dot v • m.c2 := by
  have hv : v = m.c1.dot v • m.c1 + m.c2.dot v • m.c2 + m.c3.dot v • m.c3 := by
    conv_lhs => rw [← h.isRotation.apply_transpose_apply v]
    exact Mat3.apply_columns m _
  conv_lhs => rw [hv]
  rw [h.across, zero_smul, add_zero, Vec3.add_cross, Vec3.smul_cross, Vec3.smul_cross,
    Vec3.cross_self, smul_zero, zero_add, h.isRotation.c3_cross_c1]

/-- **There is one frame at most**, and products make it. -/
theorem eq_referenceAxes (h : IsReferenceFrame dX v m) : m = referenceAxes dX v := by
  have hsecond : m.c2 = Triad.direction (v.cross m.c1) := by
    rw [h.cross_first, Triad.direction_smul_of_dot h.side h.isRotation.c2_dot_c2]
  have hcolumns : m = .ofColumns m.c1 m.c2 (m.c1.cross m.c2) := by
    rw [h.isRotation.c1_cross_c2]
    rfl
  rw [hcolumns, hsecond, h.along]
  rfl

/-- A frame is one also with a longer or shorter reference vector, and with another part of it along
the chord. -/
theorem smul_add (h : IsReferenceFrame dX v m) {s : ℝ} (hs : 0 < s) (c : ℝ) :
    IsReferenceFrame dX (s • v + c • Triad.direction dX) m where
  isRotation := h.isRotation
  along := h.along
  across := by
    rw [← h.along, Vec3.dot_add, Vec3.dot_smul, Vec3.dot_smul, h.across, Vec3.dot_comm m.c2,
      h.isRotation.c1_dot_c2, mul_zero, mul_zero, add_zero]
  side := by
    have hacross : m.c3.dot m.c1 = 0 := by
      rw [← h.isRotation.c1_cross_c2, Vec3.dot_comm, Vec3.dot_cross_self_left]
    rw [← h.along, Vec3.dot_add, Vec3.dot_smul, Vec3.dot_smul, hacross, mul_zero, add_zero]
    exact mul_pos hs h.side

end IsReferenceFrame

/-! ## The orientation -/

/-- **The orientation of a chord** goes by its direction, and is refused to a reference vector that
does not reach across it. -/
theorem orientation_eq (tol : Tolerances ℝ) (dX v : Vec3 ℝ) (element : Label) :
    orientation tol dX v element
      = if tol.parallel * max v.norm 1 < (v.cross (Triad.direction dX)).norm then
          .ok (referenceAxes dX v)
        else .error (.degenerate (.parallelReference element v.toList)) := by
  by_cases hacross : tol.parallel * max v.norm 1 < (v.cross (Triad.direction dX)).norm
  · obtain ⟨m, hm⟩ := exists_orientation hacross element
    rw [if_pos hacross, hm, (orientation_eq_ok hm).2]
    rfl
  · rw [if_neg hacross]
    unfold orientation
    simp only [Scalar.le_real, Vec3.divide_eq_smul, parallelLimit_eq]
    exact if_pos (not_lt.mp hacross)

/-- A reference vector that reaches across the chord makes a frame with it. -/
theorem isReferenceFrame_referenceAxes (hX : 0 < dX.norm)
    (hacross : 0 < (v.cross (Triad.direction dX)).norm) :
    IsReferenceFrame dX v (referenceAxes dX v) where
  isRotation := isRotation_of_across hX hacross
  along := Mat3.ofColumns_c1 _ _ _
  across := by
    rw [referenceAxes, Mat3.ofColumns_c2]
    generalize Triad.direction dX = u
    rw [Triad.direction, Vec3.smul_dot, Vec3.dot_comm, Vec3.dot_cross_self_left, mul_zero]
  side := by
    rw [referenceAxes, Mat3.ofColumns_c3]
    generalize Triad.direction dX = u at hacross ⊢
    -- what the reference vector has along the third axis is what it reaches across
    have hside : (u.cross (Triad.direction (v.cross u))).dot v = (v.cross u).norm := by
      rw [Vec3.dot_comm, Vec3.dot_cross, Triad.direction, Vec3.dot_smul, ← Vec3.norm_mul_self,
        ← mul_assoc, inv_mul_cancel₀ hacross.ne', one_mul]
    rw [hside]
    exact hacross

/-- **An accepted orientation is the frame**, and the only one. -/
theorem orientation_isReferenceFrame_iff (h0 : 0 ≤ tol.parallel) (hX : 0 < dX.norm)
    (h : orientation tol dX v element = .ok m) : IsReferenceFrame dX v m' ↔ m' = m := by
  obtain ⟨hacross, rfl⟩ := orientation_eq_ok h
  have hpos := (mul_nonneg h0 (zero_le_one.trans (le_max_right v.norm 1))).trans_lt hacross
  constructor
  · exact fun hframe => hframe.eq_referenceAxes
  · rintro rfl
    exact isReferenceFrame_referenceAxes hX hpos

/-- Reference vectors that differ in length and along the chord have one orientation, where they are
accepted. -/
theorem orientation_smul_add (h0 : 0 ≤ tol.parallel) (hX : 0 < dX.norm) {s c : ℝ} (hs : 0 < s)
    (h : orientation tol dX v element = .ok m)
    (h' : orientation tol dX (s • v + c • Triad.direction dX) element = .ok m') : m' = m := by
  have hframe : IsReferenceFrame dX v m := (orientation_isReferenceFrame_iff h0 hX h).mpr rfl
  exact ((orientation_isReferenceFrame_iff h0 hX h').mp (hframe.smul_add hs c)).symm

/-- **The orientation of a chord is determined.** It is accepted if the reference vector reaches
across the chord by more than the tolerance allows, and refused as parallel otherwise. The accepted
one is the frame of chord and reference vector, and no other rotation is. So it does not change with
the length of the chord, nor, where they are accepted, with the length of the reference vector and
its part along the chord. -/
theorem orientation_determined (h0 : 0 ≤ tol.parallel) (hX : dX ≠ 0) (v : Vec3 ℝ)
    (element : Label) :
    ((∃ m, orientation tol dX v element = .ok m)
        ↔ tol.parallel * max v.norm 1 < (v.cross (Triad.direction dX)).norm)
      ∧ (∀ e, orientation tol dX v element = .error e →
        e = .degenerate (.parallelReference element v.toList))
      ∧ (∀ s : ℝ, 0 < s → orientation tol (s • dX) v element = orientation tol dX v element)
      ∧ ∀ m, orientation tol dX v element = .ok m →
        (∀ m', IsReferenceFrame dX v m' ↔ m' = m)
        ∧ (∀ s : ℝ, 0 < s → ∀ m', orientation tol dX (s • v) element = .ok m' → m' = m)
        ∧ ∀ (c : ℝ) (m'), orientation tol dX (v + c • dX) element = .ok m' → m' = m := by
  have hpos : 0 < dX.norm := Vec3.norm_pos hX
  refine ⟨⟨?_, fun h => exists_orientation h element⟩, ?_, ?_, fun m h => ⟨?_, ?_, ?_⟩⟩
  · rintro ⟨m, hm⟩
    exact (orientation_eq_ok hm).1
  · intro e he
    rw [orientation_eq] at he
    split_ifs at he
    exact (Except.error.inj he).symm
  · intro s hs
    rw [orientation_eq, orientation_eq, referenceAxes, referenceAxes, Triad.direction_smul hs]
  · exact fun m' => orientation_isReferenceFrame_iff h0 hpos h
  · intro s hs m' h'
    have hv : s • v = s • v + (0 : ℝ) • Triad.direction dX := by rw [zero_smul, add_zero]
    exact orientation_smul_add h0 hpos hs h (hv ▸ h')
  · intro c m' h'
    have hv : v + c • dX = (1 : ℝ) • v + (c * dX.norm) • Triad.direction dX := by
      rw [one_smul, Triad.direction, mul_smul, Vec3.norm_smul_divide hpos]
    exact orientation_smul_add h0 hpos one_pos h (hv ▸ h')

omit [SeriesAngle] in
/-- A chord in the plane of the first two axes, with a reference vector along the third. -/
theorem orientation_determined_level :
    letI : SeriesAngle := .exact
    let dX : Vec3 ℝ := ⟨3, 4, 0⟩
    let v : Vec3 ℝ := ⟨0, 0, 2⟩
    0 ≤ (Tolerances.standard : Tolerances ℝ).parallel ∧ dX ≠ 0
      ∧ orientation .standard dX v .null
        = .ok (.ofColumns ⟨3 / 5, 4 / 5, 0⟩ ⟨-4 / 5, 3 / 5, 0⟩ ⟨0, 0, 1⟩)
      ∧ orientation .standard ((7 : ℝ) • dX) v .null
        = .ok (.ofColumns ⟨3 / 5, 4 / 5, 0⟩ ⟨-4 / 5, 3 / 5, 0⟩ ⟨0, 0, 1⟩) := by
  let _ : SeriesAngle := .exact
  intro dX v
  have hparallel : (Tolerances.standard : Tolerances ℝ).parallel = 1 / 1000000000000 := rfl
  have hX : dX ≠ 0 := fun hzero => by
    have hx : dX.x = 0 := congrArg Vec3.x hzero
    norm_num [dX] at hx
  have hnorm : dX.norm = 5 := by
    rw [Vec3.norm_eq, show dX.dot dX = 5 * 5 by norm_num [dX, Vec3.dot_eq],
      Real.sqrt_mul_self (by norm_num)]
  have hnorm' : v.norm = 2 := by
    rw [Vec3.norm_eq, show v.dot v = 2 * 2 by norm_num [v, Vec3.dot_eq],
      Real.sqrt_mul_self (by norm_num)]
  have hdirection : Triad.direction dX = ⟨3 / 5, 4 / 5, 0⟩ := by
    rw [Triad.direction, hnorm]
    ext <;> norm_num [dX]
  have hsquare : (v.cross (Triad.direction dX)).dot (v.cross (Triad.direction dX)) = 2 * 2 := by
    rw [Vec3.cross_dot_cross, hdirection]
    norm_num [v, Vec3.dot_eq]
  have hcross : (v.cross (Triad.direction dX)).norm = 2 := by
    rw [Vec3.norm_eq, hsquare, Real.sqrt_mul_self (by norm_num)]
  have h0 : 0 ≤ (Tolerances.standard : Tolerances ℝ).parallel := by
    rw [hparallel]
    norm_num
  obtain ⟨haccepted, -, hlength, hframe⟩ := orientation_determined h0 hX v .null
  obtain ⟨m, hm⟩ := haccepted.mpr (by rw [hparallel, hnorm', hcross]; norm_num)
  have haxes : Mat3.ofColumns ⟨3 / 5, 4 / 5, 0⟩ ⟨-4 / 5, 3 / 5, 0⟩ ⟨0, 0, 1⟩ = m :=
    ((hframe m hm).1 _).mp {
      isRotation := Mat3.isRotation_ofColumns (by norm_num [Vec3.dot_eq])
        (by norm_num [Vec3.dot_eq]) (by norm_num [Vec3.dot_eq]) (by ext <;> norm_num)
      along := hdirection.symm
      across := by norm_num [v, Vec3.dot_eq]
      side := by norm_num [v, Vec3.dot_eq] }
  rw [hlength 7 (by norm_num), haxes]
  exact ⟨h0, hX, hm, hm⟩

end Corotation
