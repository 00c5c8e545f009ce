import Corotation.Proofs.Rotation.Versor
/-!
# The versor of a rotation matrix

The products of two components of a quaternion are, up to one common factor,
sums and differences of the entries of its matrix (`Carries`). For a rotation
every one of the four candidates of the extraction is such a quaternion, since
the sums and differences form a matrix of rank one; and the largest of the
diagonal entries and the trace picks a candidate that does not vanish. So the
extraction gives a versor whose matrix is the rotation (`toMatrix_ofRotation`),
in whichever of the four cases.
-/

namespace Corotation

namespace Versor

variable [SeriesAngle] {m : Mat3 ℝ} {q : Versor ℝ} {d : ℝ}

/-- The products of the components of a quaternion are `d` times the sums and
differences of the entries of a matrix. -/
structure Carries (q : Versor ℝ) (d : ℝ) (m : Mat3 ℝ) : Prop where
  xx : q.x * q.x = d * (1 + m.r1.x - m.r2.y - m.r3.z)
  yy : q.y * q.y = d * (1 - m.r1.x + m.r2.y - m.r3.z)
  zz : q.z * q.z = d * (1 - m.r1.x - m.r2.y + m.r3.z)
  ww : q.w * q.w = d * (1 + m.r1.x + m.r2.y + m.r3.z)
  xy : q.x * q.y = d * (m.r2.x + m.r1.y)
  xz : q.x * q.z = d * (m.r3.x + m.r1.z)
  yz : q.y * q.z = d * (m.r3.y + m.r2.z)
  xw : q.x * q.w = d * (m.r3.y - m.r2.z)
  yw : q.y * q.w = d * (m.r1.z - m.r3.x)
  zw : q.z * q.w = d * (m.r2.x - m.r1.y)

omit [SeriesAngle] in
theorem Carries.square (h : q.Carries d m) : q.square = 4 * d := by
  unfold Versor.square
  linarith [h.xx, h.yy, h.zz, h.ww]

/-- The matrix of a quaternion is the one it carries, up to its square. -/
theorem Carries.toMatrix (h : q.Carries d m) : q.toMatrix = (4 * d) • m := by
  rw [toMatrix_eq]
  ext <;> simp only [Mat3.outer, Mat3.skew_eq, Vec3.dot_eq, vector, Mat3.add_r1, Mat3.add_r2,
    Mat3.add_r3, Mat3.smul_r1, Mat3.smul_r2, Mat3.smul_r3, Mat3.one_r1, Mat3.one_r2, Mat3.one_r3,
    Vec3.add_x, Vec3.add_y, Vec3.add_z, Vec3.smul_x, Vec3.smul_y, Vec3.smul_z,
    Vec3.scale_eq_smul] <;>
    linarith [h.xx, h.yy, h.zz, h.ww, h.xy, h.xz, h.yz, h.xw, h.yw, h.zw]

/-- A versor carries its own matrix. -/
theorem carries_toMatrix (h : q.square = 1) : q.Carries (1 / 4) q.toMatrix := by
  unfold Versor.square at h
  rw [toMatrix_eq]
  constructor <;>
  · simp [Mat3.outer, Mat3.skew_eq, Vec3.dot_eq, vector]
    linarith

/-! ## The four candidates -/

/-- The candidate that reads its first component from the diagonal. -/
noncomputable def byX (m : Mat3 ℝ) : Versor ℝ :=
  ⟨1 + m.r1.x - m.r2.y - m.r3.z, m.r2.x + m.r1.y, m.r3.x + m.r1.z, m.r3.y - m.r2.z⟩

/-- The candidate that reads its second component from the diagonal. -/
noncomputable def byY (m : Mat3 ℝ) : Versor ℝ :=
  ⟨m.r2.x + m.r1.y, 1 - m.r1.x + m.r2.y - m.r3.z, m.r3.y + m.r2.z, m.r1.z - m.r3.x⟩

/-- The candidate that reads its third component from the diagonal. -/
noncomputable def byZ (m : Mat3 ℝ) : Versor ℝ :=
  ⟨m.r3.x + m.r1.z, m.r3.y + m.r2.z, 1 - m.r1.x - m.r2.y + m.r3.z, m.r2.x - m.r1.y⟩

/-- The candidate that reads its scalar part from the trace. -/
noncomputable def byTrace (m : Mat3 ℝ) : Versor ℝ :=
  ⟨m.r3.y - m.r2.z, m.r1.z - m.r3.x, m.r2.x - m.r1.y, 1 + m.r1.x + m.r2.y + m.r3.z⟩

/-- **Every candidate carries the rotation**, with the component it reads from
the diagonal as the common factor. -/
theorem carries_candidates (h : m.IsRotation) :
    (byX m).Carries (byX m).x m ∧ (byY m).Carries (byY m).y m ∧ (byZ m).Carries (byZ m).z m
      ∧ (byTrace m).Carries (byTrace m).w m := by
  -- rows and columns are orthonormal, and every entry is its cofactor
  have hrows := h.mul_transpose
  have hcols := h.transpose_mul
  have hcof := h.adjugate_eq
  simp only [Mat3.ext_iff, Vec3.ext_iff, Mat3.mul_r1, Mat3.mul_r2, Mat3.mul_r3, Mat3.transpose_r1,
    Mat3.transpose_r2, Mat3.transpose_r3, Mat3.one_r1, Mat3.one_r2, Mat3.one_r3, Mat3.adjugate,
    Mat3.ofColumns, Vec3.cross_x, Vec3.cross_y, Vec3.cross_z, Vec3.dot_eq, Mat3.c1_eq, Mat3.c2_eq,
    Mat3.c3_eq] at hrows hcols hcof
  obtain ⟨⟨r11, r12, r13⟩, ⟨-, r22, r23⟩, ⟨-, -, r33⟩⟩ := hrows
  obtain ⟨⟨k11, k12, k13⟩, ⟨-, k22, k23⟩, ⟨-, -, k33⟩⟩ := hcols
  obtain ⟨⟨f11, f12, f13⟩, ⟨f21, f22, f23⟩, ⟨f31, f32, f33⟩⟩ := hcof
  refine ⟨⟨?_, ?_, ?_, ?_, ?_, ?_, ?_, ?_, ?_, ?_⟩, ⟨?_, ?_, ?_, ?_, ?_, ?_, ?_, ?_, ?_, ?_⟩,
    ⟨?_, ?_, ?_, ?_, ?_, ?_, ?_, ?_, ?_, ?_⟩, ⟨?_, ?_, ?_, ?_, ?_, ?_, ?_, ?_, ?_, ?_⟩⟩ <;>
    simp only [byX, byY, byZ, byTrace] <;> linarith

/-! ## The selection -/

/-- The extraction compares the diagonal and the trace. -/
theorem ofRotation_eq_ite (m : Mat3 ℝ) :
    ofRotation m = (if m.r1.x < m.r2.y then
      if m.r2.y < m.r3.z then if m.r3.z < m.trace then byTrace m else byZ m
      else if m.r2.y < m.trace then byTrace m else byY m
    else
      if m.r1.x < m.r3.z then if m.r3.z < m.trace then byTrace m else byZ m
      else if m.r1.x < m.trace then byTrace m else byX m).normalize := by
  have htrace : m.trace = m.r1.x + m.r2.y + m.r3.z := rfl
  have hX : (⟨1 - m.trace + 2 * m.r1.x, m.r2.x + m.r1.y, m.r3.x + m.r1.z,
      m.r3.y - m.r2.z⟩ : Versor ℝ) = byX m := by
    ext <;> simp only [byX, htrace]
    ring
  have hY : (⟨m.r1.y + m.r2.x, 1 - m.trace + 2 * m.r2.y, m.r3.y + m.r2.z,
      m.r1.z - m.r3.x⟩ : Versor ℝ) = byY m := by
    ext <;> simp only [byY, htrace] <;> ring
  have hZ : (⟨m.r1.z + m.r3.x, m.r2.z + m.r3.y, 1 - m.trace + 2 * m.r3.z,
      m.r2.x - m.r1.y⟩ : Versor ℝ) = byZ m := by
    ext <;> simp only [byZ, htrace] <;> ring
  have hT : (⟨m.r3.y - m.r2.z, m.r1.z - m.r3.x, m.r2.x - m.r1.y, 1 + m.trace⟩ : Versor ℝ)
      = byTrace m := by
    ext <;> simp only [byTrace, htrace]
    ring
  rw [← hX, ← hY, ← hZ, ← hT]
  unfold ofRotation
  simp only [Scalar.lt_real]

/-- **The extraction takes a candidate whose diagonal component is
positive.** -/
theorem ofRotation_eq (m : Mat3 ℝ) :
    (ofRotation m = (byX m).normalize ∧ 0 < (byX m).x)
      ∨ (ofRotation m = (byY m).normalize ∧ 0 < (byY m).y)
      ∨ (ofRotation m = (byZ m).normalize ∧ 0 < (byZ m).z)
      ∨ (ofRotation m = (byTrace m).normalize ∧ 0 < (byTrace m).w) := by
  have htrace : m.trace = m.r1.x + m.r2.y + m.r3.z := rfl
  rw [ofRotation_eq_ite, htrace]
  set a := m.r1.x
  set b := m.r2.y
  set c := m.r3.z
  split_ifs with hab hbc ht ht hac ht ht
  · exact .inr (.inr (.inr ⟨rfl, by change 0 < 1 + a + b + c; linarith⟩))
  · exact .inr (.inr (.inl ⟨rfl, by change 0 < 1 - a - b + c; linarith⟩))
  · exact .inr (.inr (.inr ⟨rfl, by change 0 < 1 + a + b + c; linarith⟩))
  · exact .inr (.inl ⟨rfl, by change 0 < 1 - a + b - c; linarith⟩)
  · exact .inr (.inr (.inr ⟨rfl, by change 0 < 1 + a + b + c; linarith⟩))
  · exact .inr (.inr (.inl ⟨rfl, by change 0 < 1 - a - b + c; linarith⟩))
  · exact .inr (.inr (.inr ⟨rfl, by change 0 < 1 + a + b + c; linarith⟩))
  · exact .inl ⟨rfl, by change 0 < 1 + a - b - c; linarith⟩

/-- What the extraction takes is a quaternion that carries the rotation and
does not vanish. -/
theorem exists_carries (h : m.IsRotation) :
    ∃ q d, 0 < d ∧ Carries q d m ∧ ofRotation m = q.normalize := by
  obtain ⟨hx, hy, hz, hw⟩ := carries_candidates h
  rcases ofRotation_eq m with ⟨heq, hpos⟩ | ⟨heq, hpos⟩ | ⟨heq, hpos⟩ | ⟨heq, hpos⟩
  · exact ⟨byX m, _, hpos, hx, heq⟩
  · exact ⟨byY m, _, hpos, hy, heq⟩
  · exact ⟨byZ m, _, hpos, hz, heq⟩
  · exact ⟨byTrace m, _, hpos, hw, heq⟩

/-- The extraction gives a versor for any matrix, a rotation or not. -/
theorem ofRotation_unit (m : Mat3 ℝ) : (ofRotation m).square = 1 := by
  have hsquare {x y z w : ℝ} (h : 0 < x ∨ 0 < y ∨ 0 < z ∨ 0 < w) :
      0 < (⟨x, y, z, w⟩ : Versor ℝ).square := by
    have hx := mul_self_nonneg x
    have hy := mul_self_nonneg y
    have hz := mul_self_nonneg z
    have hw := mul_self_nonneg w
    change 0 < x * x + y * y + z * z + w * w
    rcases h with h | h | h | h <;> linarith [mul_pos h h]
  rcases ofRotation_eq m with ⟨heq, hpos⟩ | ⟨heq, hpos⟩ | ⟨heq, hpos⟩ | ⟨heq, hpos⟩ <;> rw [heq]
  · exact normalize_square (hsquare (.inl hpos))
  · exact normalize_square (hsquare (.inr (.inl hpos)))
  · exact normalize_square (hsquare (.inr (.inr (.inl hpos))))
  · exact normalize_square (hsquare (.inr (.inr (.inr hpos))))

/-- **The versor of a rotation has the rotation for its matrix.** -/
theorem toMatrix_ofRotation (h : m.IsRotation) : (ofRotation m).toMatrix = m := by
  obtain ⟨q, d, hd, hq, heq⟩ := exists_carries h
  rw [heq, toMatrix_normalize, hq.square, hq.toMatrix, smul_smul,
    inv_mul_cancel₀ (by positivity), one_smul]

/-! ## The tests before the extraction -/

/-- A rotation passes the test of orthonormal rows. -/
theorem isOrthonormal_of_isRotation (h : m.IsRotation) : IsOrthonormal m := by
  have hrows := h.mul_transpose
  simp only [Mat3.ext_iff, Vec3.ext_iff, Mat3.mul_r1, Mat3.mul_r2, Mat3.mul_r3,
    Mat3.transpose_c1, Mat3.transpose_c2, Mat3.transpose_c3, Mat3.one_r1, Mat3.one_r2,
    Mat3.one_r3] at hrows
  obtain ⟨⟨r11, r12, r13⟩, ⟨r21, r22, r23⟩, ⟨r31, r32, r33⟩⟩ := hrows
  -- an exact entry deviates by nothing, and nothing is below every tolerance
  have close {x e : ℝ} (hx : x = e) : Scalar.magnitude (x - e) ≤ gramTolerance e := by
    rw [hx, sub_self, Scalar.magnitude_real, abs_zero]
    change (0 : ℝ) ≤ 1 / 1000000000000 + 1 / 100000 * Scalar.magnitude e
    rw [Scalar.magnitude_real]
    positivity
  unfold IsOrthonormal
  simp only [Scalar.le_real]
  exact ⟨⟨close r11, close r12, close r13⟩, ⟨close r21, close r22, close r23⟩,
    ⟨close r31, close r32, close r33⟩⟩

/-- **A rotation is given its versor as it is.** -/
theorem ofMatrix_eq (h : m.IsRotation) : ofMatrix m = .ok (ofRotation m) := by
  unfold ofMatrix
  have hdet : ¬ @LE.le ℝ Scalar.instLEScalar m.det (0 : ℝ) := by
    rw [Scalar.le_real, h.det_eq_one]
    exact not_le.mpr one_pos
  rw [if_neg hdet, if_pos (isOrthonormal_of_isRotation h)]

/-- **No matrix but one with a positive determinant has a versor.** -/
theorem det_pos_of_ofMatrix {q : Versor ℝ} (h : ofMatrix m = .ok q) : 0 < m.det := by
  unfold ofMatrix at h
  split at h
  · cases h
  · rename_i hdet
    exact not_le.mp (mt Scalar.le_real.mpr hdet)

/-- **And every one with a positive determinant has one.** -/
theorem exists_ofMatrix (h : 0 < m.det) : ∃ q, ofMatrix m = .ok q := by
  have hfinite : IsFiniteMatrix m := fun _ _ =>
    ⟨Scalar.isFinite_real, Scalar.isFinite_real, Scalar.isFinite_real⟩
  unfold ofMatrix
  rw [if_neg (mt Scalar.le_real.mp (not_le.mpr h))]
  by_cases horth : IsOrthonormal m
  · exact ⟨_, if_pos horth⟩
  · exact ⟨_, by rw [if_neg horth, if_pos hfinite]⟩

/-- What a matrix has for a versor is one. -/
theorem ofMatrix_square (h : ofMatrix m = .ok q) : q.square = 1 := by
  unfold ofMatrix at h
  split_ifs at h
  · obtain rfl := Except.ok.inj h
    exact ofRotation_unit m
  · obtain rfl := Except.ok.inj h
    exact ofRotation_unit (nearestRotation m)

theorem ofRotation_square (h : m.IsRotation) : (ofRotation m).square = 1 :=
  ofMatrix_square (ofMatrix_eq h)

end Versor

end Corotation
