import Corotation.Proofs.Rotation.Logarithm
import Corotation.Supplied.Rotation
/-!
# From rotations to their coordinates and back

A rotation is kept as a versor, measured by its rotation vector and given back as
a matrix. The matrix survives the way through the versor always, and the way
through the rotation vector where no quotient is read from its series: at no
angle at all, and at every angle above (`rotationMatrix_logarithm`). Half a turn
is no exception there, since either of its two versors has its matrix.

The angle of a rotation is the one of its trace (`angle_eq_rotationAngle`), so
nothing here depends on how a versor is chosen.

Main statement: `rotation_coordinates`, the ways there and back together with
what a list of increments makes of an orientation.
-/

namespace Corotation

variable [SeriesAngle]

/-- The angle of a rotation, by its trace. -/
noncomputable def Mat3.rotationAngle (m : Mat3 ℝ) : ℝ := Real.arccos ((m.trace - 1) / (1 + 1))

namespace Versor

variable {m : Mat3 ℝ} {q : Versor ℝ} {v : Vec3 ℝ}

/-- **Twice the half angle of the versor is the angle of the trace.** -/
theorem angle_eq_rotationAngle (h : m.IsRotation) : angle m = m.rotationAngle := by
  have hw : (principal m).w * (principal m).w = (1 + m.trace) / 4 := by
    rw [(principal_carries h).ww]
    change _ = (1 + (m.r1.x + m.r2.y + m.r3.z)) / 4
    ring
  have hcos : Real.cos (angle m) = (m.trace - 1) / 2 := by
    rw [show angle m = 2 * (angle m / 2) by ring, Real.cos_two_mul, cos_half_angle h]
    linarith
  rw [Mat3.rotationAngle, one_add_one_eq_two, ← hcos,
    Real.arccos_cos (angle_nonneg m) (angle_le_pi m)]

/-! ## From a rotation vector -/

/-- Increments that are not read from the series have a rotation for their matrix, and
it is the one that a composition applies. -/
theorem rotationMatrix_eq_turn (h0 : 0 ≤ SeriesAngle.angle)
    (hv : v = 0 ∨ SeriesAngle.angle < v.norm) : rotationMatrix v = (turn v).toMatrix := by
  rcases hv with rfl | hv
  · rw [rotationMatrix, ofVector_zero, turn_zero]
  · rw [rotationMatrix, turn_eq_ofVector h0 hv]

/-- **Below half a turn a rotation vector is read back.** -/
theorem rotationVector_rotationMatrix (h0 : 0 ≤ SeriesAngle.angle)
    (hv : SeriesAngle.angle < v.norm) (hpi : v.norm < Real.pi) :
    rotationVector (rotationMatrix v) = .ok v := by
  rw [rotationMatrix_eq_turn h0 (.inr hv), rotationVector_eq (isRotation_turn v),
    logarithm_turn h0 hv hpi]

/-! ## From a rotation -/

/-- Above the series the versor of the rotation vector is the principal one. -/
theorem ofVector_logarithm (h0 : 0 ≤ SeriesAngle.angle) (h : m.IsRotation)
    (ha : SeriesAngle.angle < angle m) : ofVector (logarithm m) = principal m := by
  have hpos : 0 < angle m := h0.trans_lt ha
  have hsin : 0 < Real.sin (angle m / 2) :=
    Real.sin_pos_of_pos_of_lt_pi (by positivity) (by linarith [angle_le_pi m, Real.pi_pos])
  have hnorm := norm_logarithm h0 h ha
  have hv : (ofVector (logarithm m)).vector = (principal m).vector := by
    rw [ofVector_vector, hnorm, halfSine_eq, if_neg (not_le.mpr ha), logarithm,
      inverseHalfSine_eq, if_neg (not_le.mpr ha), smul_smul, div_mul_div_cancel₀ hpos.ne',
      div_self hsin.ne', one_smul]
  have hw : (ofVector (logarithm m)).w = (principal m).w := by
    rw [ofVector_w, hnorm, cos_half_angle h]
  exact ext_vector hv hw

/-- **A rotation is the rotation of its rotation vector**, half a turn included. -/
theorem rotationMatrix_logarithm (h0 : 0 ≤ SeriesAngle.angle) (h : m.IsRotation)
    (ha : m = 1 ∨ SeriesAngle.angle < m.rotationAngle) : rotationMatrix (logarithm m) = m := by
  rcases ha with rfl | ha
  · rw [logarithm_one, rotationMatrix, ofVector_zero, toMatrix_identity]
  · rw [← angle_eq_rotationAngle h] at ha
    rw [rotationMatrix, ofVector_logarithm h0 h ha, principal_toMatrix h]

/-! ## Increments in order -/

/-- What a list of increments makes of an orientation. -/
noncomputable def turned (q : Versor ℝ) (increments : List (Vec3 ℝ)) : Versor ℝ :=
  increments.foldl (fun q v => hamilton (turn v) q) q

/-- One increment keeps a versor a versor, so no number of them leads away from the
versors. -/
theorem turned_square (h : q.square = 1) (increments : List (Vec3 ℝ)) :
    (turned q increments).square = 1 := by
  induction increments generalizing q with
  | nil => exact h
  | cons v increments ih => exact ih (hamilton_turn_square v h)

/-- **No composition of a list is refused.** -/
theorem composeAll_eq (h : q.square = 1) (increments : List (Vec3 ℝ)) :
    Supplied.composeAll q (increments.map Grid.ofVec3) = .ok (turned q increments) := by
  induction increments generalizing q with
  | nil => rfl
  | cons v increments ih =>
    have hstep : Supplied.composeAll q ((v :: increments).map Grid.ofVec3)
        = compose v q >>= fun r => Supplied.composeAll r (increments.map Grid.ofVec3) := rfl
    rw [hstep, compose_eq v h]
    exact ih (hamilton_turn_square v h)

/-- Above the series the matrices of the increments are multiplied, the later one from
the left. -/
theorem toMatrix_turned (h0 : 0 ≤ SeriesAngle.angle) {increments : List (Vec3 ℝ)}
    (hi : ∀ v ∈ increments, v = 0 ∨ SeriesAngle.angle < v.norm) :
    (turned q increments).toMatrix = (increments.map rotationMatrix).reverse.prod * q.toMatrix := by
  have hturns : increments.map rotationMatrix = increments.map fun v => (turn v).toMatrix :=
    List.map_congr_left fun v hv => rotationMatrix_eq_turn h0 (hi v hv)
  rw [turned, toMatrix_foldl_turn, hturns]

/-- **Rotations and their coordinates.** Every rotation is the matrix of its versor. Its
rotation vector is not longer than half a turn and, unless it is read from the series,
has the rotation for its matrix; and below half a turn a rotation vector is read back
from its matrix. Increments applied in order, to whatever orientation a matrix with
positive determinant has, are never refused, end at a rotation, and multiply their
matrices from the left unless one of them is read from the series. -/
theorem rotation_coordinates (h0 : 0 ≤ SeriesAngle.angle) :
    (∀ m : Mat3 ℝ, m.IsRotation → ∃ q, ofMatrix m = .ok q ∧ q.toMatrix = m)
    ∧ (∀ m : Mat3 ℝ, m.IsRotation → ∃ v, rotationVector m = .ok v ∧ v.norm ≤ Real.pi
        ∧ (m = 1 ∨ SeriesAngle.angle < m.rotationAngle → rotationMatrix v = m))
    ∧ (∀ v : Vec3 ℝ, SeriesAngle.angle < v.norm → v.norm < Real.pi →
        rotationVector (rotationMatrix v) = .ok v)
    ∧ (∀ m : Mat3 ℝ, 0 < m.det → ∃ q, ofMatrix m = .ok q ∧ (m.IsRotation → q.toMatrix = m)
        ∧ ∀ increments : List (Vec3 ℝ), ∃ r,
          Supplied.composeAll q (increments.map Grid.ofVec3) = .ok r ∧ r.toMatrix.IsRotation
          ∧ ((∀ v ∈ increments, v = 0 ∨ SeriesAngle.angle < v.norm) →
              r.toMatrix = (increments.map rotationMatrix).reverse.prod * q.toMatrix)) := by
  refine ⟨fun m h => ⟨_, ofMatrix_eq h, toMatrix_ofRotation h⟩, fun m h => ?_,
    fun v => rotationVector_rotationMatrix h0, fun m hdet => ?_⟩
  · exact ⟨_, rotationVector_eq h, (norm_logarithm_le h0 h).trans (angle_le_pi m),
      rotationMatrix_logarithm h0 h⟩
  · obtain ⟨q, hq⟩ := exists_ofMatrix hdet
    have hsquare := ofMatrix_square hq
    have hmatrix (h : m.IsRotation) : q.toMatrix = m := by
      rw [ofMatrix_eq h] at hq
      cases hq
      exact toMatrix_ofRotation h
    refine ⟨q, hq, hmatrix, fun increments => ⟨_, composeAll_eq hsquare increments, ?_, ?_⟩⟩
    · exact isRotation_toMatrix (turned_square hsquare increments)
    · exact toMatrix_turned h0

/-- Half a turn about the first axis. -/
def halfTurn : Mat3 ℝ := ⟨⟨1, 0, 0⟩, ⟨0, -1, 0⟩, ⟨0, 0, -1⟩⟩

theorem halfTurn_isRotation : halfTurn.IsRotation where
  mul_transpose := by
    ext <;> simp [halfTurn, Vec3.dot_eq, Mat3.c1_eq, Mat3.c2_eq, Mat3.c3_eq]
  det_eq_one := by simp [halfTurn, Mat3.det_real, Vec3.dot_eq]

theorem halfTurn_rotationAngle : halfTurn.rotationAngle = Real.pi := by
  have htrace : halfTurn.trace = -1 := by
    change (1 : ℝ) + -1 + -1 = -1
    norm_num
  rw [Mat3.rotationAngle, htrace, show ((-1 : ℝ) - 1) / (1 + 1) = -1 by norm_num,
    Real.arccos_neg_one]

omit [SeriesAngle] in
/-- With the series up to a thousandth of a radian, half a turn survives the way through
its rotation vector, and one radian about the first axis after it is multiplied from the
left. -/
theorem rotation_coordinates_halfTurn :
    letI : SeriesAngle := ⟨1 / 1000⟩
    0 ≤ SeriesAngle.angle
      ∧ (∃ v, rotationVector halfTurn = .ok v ∧ rotationMatrix v = halfTurn)
      ∧ rotationVector (rotationMatrix (⟨1, 0, 0⟩ : Vec3 ℝ)) = .ok ⟨1, 0, 0⟩
      ∧ ∃ q r, ofMatrix halfTurn = .ok q
        ∧ Supplied.composeAll q [Grid.ofVec3 ⟨1, 0, 0⟩, Grid.ofVec3 0] = .ok r
        ∧ r.toMatrix = rotationMatrix 0 * rotationMatrix ⟨1, 0, 0⟩ * halfTurn := by
  let _ : SeriesAngle := ⟨1 / 1000⟩
  have h0 : 0 ≤ SeriesAngle.angle := by
    change (0 : ℝ) ≤ 1 / 1000
    norm_num
  have hnorm : (⟨1, 0, 0⟩ : Vec3 ℝ).norm = 1 := by simp [Vec3.norm_eq, Vec3.dot_eq]
  have hone : SeriesAngle.angle < (⟨1, 0, 0⟩ : Vec3 ℝ).norm := by
    rw [hnorm]
    change (1 / 1000 : ℝ) < 1
    norm_num
  have hangle : SeriesAngle.angle < halfTurn.rotationAngle := by
    rw [halfTurn_rotationAngle]
    exact hone.trans (by linarith [hnorm, Real.two_le_pi])
  obtain ⟨-, hvector, hback, hstart⟩ := rotation_coordinates h0
  obtain ⟨v, hv, -, hmatrix⟩ := hvector _ halfTurn_isRotation
  obtain ⟨q, hq, hquarter, hrun⟩ :=
    hstart halfTurn (by rw [halfTurn_isRotation.det_eq_one]; norm_num)
  obtain ⟨r, hr, -, hproduct⟩ := hrun [⟨1, 0, 0⟩, 0]
  refine ⟨h0, ⟨v, hv, hmatrix (.inr hangle)⟩,
    hback _ hone (by linarith [hnorm, Real.two_le_pi]), q, r, hq, hr, ?_⟩
  have hlong : ∀ v ∈ [(⟨1, 0, 0⟩ : Vec3 ℝ), 0], v = 0 ∨ SeriesAngle.angle < v.norm := by
    simp [hone]
  rw [hproduct hlong, hquarter halfTurn_isRotation]
  simp

end Versor

end Corotation
