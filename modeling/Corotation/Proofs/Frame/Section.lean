import Corotation.Frame.Section
import Corotation.Proofs.Element.Rigid
/-!
# The energy of a section

The linear-elastic stiffness is symmetric, and its quadratic form is the energy
of the natural modes of the local deformations (`inner_stiffness`). Energies are
taken without the factor of one half.

The natural modes of small displacements of the two ends of a straight beam along
the first axis are what the ends move apart, how they turn about the axis against
each other, and how each turns against the chord. Their energy is that of the
linear beam (`beamEnergy`). With positive constants it vanishes for the rigid
motions of the beam and for no other displacements (`beamEnergy_eq_zero_iff`).
-/

namespace Corotation

namespace Section

variable [SeriesAngle] (s : Section ℝ) (length : ℝ) (v x : ElementVector ℝ)

/-- The stiffness acts on the elongation and on each component of the two
rotations. -/
theorem stiffness_apply : ElementMatrix.apply (s.stiffness length) v =
    let torsion := s.G * s.J / length
    let y := s.E * s.Iy / length
    let z := s.E * s.Iz / length
    let moment (own other : Vec3 ℝ) : Vec3 ℝ := ⟨torsion * own.x - torsion * other.x,
      y * 4 * own.y + y * 2 * other.y, z * 4 * own.z + z * 2 * other.z⟩
    ⟨⟨0, moment v.i.rot v.j.rot⟩,
     ⟨⟨s.E * s.A / length * v.j.lin.x, 0, 0⟩, moment v.j.rot v.i.rot⟩⟩ := by
  refine Slots.ext_slots ?_ ?_ ?_ ?_ <;> simp [stiffness, Covectors.apply_eq]
    <;> ext <;> simp <;> ring

/-- **The stiffness is symmetric.** -/
theorem stiffness_transpose : (s.stiffness length).transpose = s.stiffness length := by
  refine (ElementMatrix.transpose_eq_self_iff _).mpr fun x y => ?_
  rw [ElementMatrix.asymmetry, stiffness_apply, stiffness_apply]
  simp [ElementVector.inner_eq, Vec3.dot_eq]
  ring

/-- **Its energy is that of the natural modes**: elongation, twist, and bending
about the two lateral axes. -/
theorem inner_stiffness : v.inner (ElementMatrix.apply (s.stiffness length) v)
    = s.E * s.A / length * v.j.lin.x ^ 2
      + s.G * s.J / length * (v.j.rot.x - v.i.rot.x) ^ 2
      + s.E * s.Iz / length
        * (4 * v.i.rot.z ^ 2 + 4 * v.i.rot.z * v.j.rot.z + 4 * v.j.rot.z ^ 2)
      + s.E * s.Iy / length
        * (4 * v.i.rot.y ^ 2 + 4 * v.i.rot.y * v.j.rot.y + 4 * v.j.rot.y ^ 2) := by
  rw [stiffness_apply]
  simp [ElementVector.inner_eq, Vec3.dot_eq]
  ring

/-- The energy of a straight linear beam along the first axis, for small
displacements of its ends. -/
noncomputable def beamEnergy (s : Section ℝ) (length : ℝ) (x : ElementVector ℝ) : ℝ :=
  let a := x.i.rot.z - (x.j.lin.y - x.i.lin.y) / length
  let b := x.j.rot.z - (x.j.lin.y - x.i.lin.y) / length
  let g := x.i.rot.y + (x.j.lin.z - x.i.lin.z) / length
  let h := x.j.rot.y + (x.j.lin.z - x.i.lin.z) / length
  s.E * s.A / length * (x.j.lin.x - x.i.lin.x) ^ 2
    + s.G * s.J / length * (x.j.rot.x - x.i.rot.x) ^ 2
    + s.E * s.Iz / length * (4 * a ^ 2 + 4 * a * b + 4 * b ^ 2)
    + s.E * s.Iy / length * (4 * g ^ 2 + 4 * g * h + 4 * h ^ 2)

/-- Every constant of the material and of the cross-section is positive. -/
structure IsPositive (s : Section ℝ) : Prop where
  E : 0 < s.E
  G : 0 < s.G
  A : 0 < s.A
  Iy : 0 < s.Iy
  Iz : 0 < s.Iz
  J : 0 < s.J

omit [SeriesAngle] in
/-- The bending form is positive definite. -/
theorem bending_nonneg (a b : ℝ) : 0 ≤ 4 * a ^ 2 + 4 * a * b + 4 * b ^ 2 := by
  nlinarith [sq_nonneg (a + b), sq_nonneg a, sq_nonneg b]

omit [SeriesAngle] in
theorem bending_eq_zero_iff (a b : ℝ) :
    4 * a ^ 2 + 4 * a * b + 4 * b ^ 2 = 0 ↔ a = 0 ∧ b = 0 := by
  refine ⟨fun h => ⟨?_, ?_⟩, fun ⟨ha, hb⟩ => by rw [ha, hb]; ring⟩
  · nlinarith [sq_nonneg (a + b), sq_nonneg a, sq_nonneg b]
  · nlinarith [sq_nonneg (a + b), sq_nonneg a, sq_nonneg b]

section Positive

variable {s length x} (hs : s.IsPositive) (hlength : 0 < length)
include hs hlength

omit [SeriesAngle] in
theorem IsPositive.beamEnergy_nonneg : 0 ≤ s.beamEnergy length x := by
  obtain ⟨hE, hG, hA, hIy, hIz, hJ⟩ := hs
  unfold beamEnergy
  have hz := bending_nonneg (x.i.rot.z - (x.j.lin.y - x.i.lin.y) / length)
    (x.j.rot.z - (x.j.lin.y - x.i.lin.y) / length)
  have hy := bending_nonneg (x.i.rot.y + (x.j.lin.z - x.i.lin.z) / length)
    (x.j.rot.y + (x.j.lin.z - x.i.lin.z) / length)
  positivity

/-- **The energy vanishes at the rigid motions of the beam**, and only there. -/
theorem IsPositive.beamEnergy_eq_zero_iff : s.beamEnergy length x = 0
    ↔ x ∈ ElementVector.rigidMotions ⟨0, ⟨length, 0, 0⟩⟩ := by
  obtain ⟨hE, hG, hA, hIy, hIz, hJ⟩ := hs
  have hstretch : 0 < s.E * s.A / length := by positivity
  have htwist : 0 < s.G * s.J / length := by positivity
  have hz : 0 < s.E * s.Iz / length := by positivity
  have hy : 0 < s.E * s.Iy / length := by positivity
  have hbend {k : ℝ} (hk : 0 < k) (a b : ℝ) := mul_nonneg hk.le (bending_nonneg a b)
  -- four terms, none negative: the sum vanishes where each one does
  rw [ElementVector.mem_rigidMotions_iff, sub_zero, beamEnergy, add_eq_zero_iff_of_nonneg
      (add_nonneg (by positivity) (hbend hz _ _)) (hbend hy _ _),
    add_eq_zero_iff_of_nonneg (by positivity) (hbend hz _ _),
    add_eq_zero_iff_of_nonneg (by positivity) (by positivity),
    mul_eq_zero_iff_left hstretch.ne', mul_eq_zero_iff_left htwist.ne',
    mul_eq_zero_iff_left hz.ne', mul_eq_zero_iff_left hy.ne', bending_eq_zero_iff,
    bending_eq_zero_iff, pow_eq_zero_iff two_ne_zero, pow_eq_zero_iff two_ne_zero,
    Vec3.ext_iff, Vec3.ext_iff]
  have hslope (u p : ℝ) : u - p / length = 0 ↔ p = u * length := by
    rw [sub_eq_zero, eq_div_iff hlength.ne', eq_comm]
  have hrise (u p : ℝ) : u + p / length = 0 ↔ p = -(u * length) := by
    rw [← sub_neg_eq_add, ← neg_div, hslope, neg_eq_iff_eq_neg]
  simp only [hslope, hrise, Vec3.sub_x, Vec3.sub_y, Vec3.sub_z, Vec3.cross_x, Vec3.cross_y,
    Vec3.cross_z, mul_zero, sub_zero, zero_sub]
  constructor
  · rintro ⟨⟨⟨hx, htwist⟩, hyi, hyj⟩, hzi, hzj⟩
    refine ⟨⟨(sub_eq_zero.mp htwist).symm, ?_, ?_⟩, hx, hyi, hzi⟩
    · exact mul_right_cancel₀ hlength.ne' (neg_injective (hzi.symm.trans hzj))
    · exact mul_right_cancel₀ hlength.ne' (hyi.symm.trans hyj)
  · rintro ⟨⟨hrx, hry, hrz⟩, hx, hyi, hzi⟩
    exact ⟨⟨⟨hx, sub_eq_zero.mpr hrx.symm⟩, hyi, hrz ▸ hyi⟩, hzi, hry ▸ hzi⟩

end Positive

end Section

end Corotation
