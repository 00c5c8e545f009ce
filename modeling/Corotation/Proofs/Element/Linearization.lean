import Corotation.Proofs.Element.Triad
import Corotation.Proofs.Rotation.Tangent
/-!
# The linearization over the real numbers

The deformation tangent and the five parts of the geometric stiffness by
their action on a displacement rate `x`. The local rotations of a moving
element change by the tangent (`hasRate_localRotation`), and the end forces of
fixed local forces by the geometric stiffness: the triad carries the forces
along, the chord turns under the axial force, and the length and the twist
ratios inside the spin have rates of their own (`hasRate_endForce`). The
curvature of the rotation vectors enters through the moments, whose stiffness
it is (`hasRate_pulledMoment`).
-/

open Topology

namespace Corotation

namespace Triad

variable [SeriesAngle] (tol : Tolerances ℝ) (t : Triad ℝ) (x p ul : ElementVector ℝ)

/-! ## The deformation tangent -/

/-- The relative spins of the two ends, by their matrices. -/
theorem globalRelativeSpin_apply : t.globalRelativeSpin.i.apply x = (t.relativeSpins x).i
    ∧ t.globalRelativeSpin.j.apply x = (t.relativeSpins x).j := by
  constructor <;>
  · simp only [globalRelativeSpin, relativeSpin, Ends.map, Covectors.mulDiagonal_apply,
      Covectors.sub_apply]
    simp [Covectors.apply_eq, relativeSpins, localSpin, localize]

/-- The row of the chord length, as the first row of three. -/
theorem axialRow_apply (r : ElementVector ℝ) :
    Covectors.apply (Slots.map (fun v => ⟨v, .zero, .zero⟩) r) x = ⟨r.inner x, 0, 0⟩ := by
  ext <;> simp [Covectors.apply_eq, ElementVector.inner]

/-- The length of the chord changes by what its ends move along it. -/
theorem chordRow_inner : t.chordRow.inner x = t.e1.dot (x.j.lin - x.i.lin) := by
  simp [chordRow, ElementVector.inner]
  ring

/-- **The tangent acts** on the elongation by the row of the chord, and on each
local rotation by the tangent of its vector at the relative spin. -/
theorem deformationTangent_apply : ElementMatrix.apply (t.deformationTangent tol ul) x =
    ⟨⟨0, (Tangent.spinToVector tol ul.i.rot).apply (t.relativeSpins x).i⟩,
     ⟨⟨t.chordRow.inner x, 0, 0⟩,
      (Tangent.spinToVector tol ul.j.rot).apply (t.relativeSpins x).j⟩⟩ := by
  obtain ⟨hi, hj⟩ := t.globalRelativeSpin_apply x
  refine Slots.ext_slots ?_ ?_ ?_ ?_
  · exact Covectors.zero_apply x
  · change Covectors.apply (Covectors.mulLeft _ _) x = _
    rw [Covectors.mulLeft_apply, hi]
  · exact axialRow_apply x t.chordRow
  · change Covectors.apply (Covectors.mulLeft _ _) x = _
    rw [Covectors.mulLeft_apply, hj]

/-- **A local rotation moves with the relative spin of its node.** -/
theorem hasRate_localRotation {f : ℝ → Triad ℝ} {R : ℝ → Mat3 ℝ} {z u : Vec3 ℝ} {s : ℝ}
    (hf : Mat3.HasRate (fun τ => (f τ).axes) ((f s).axes * Mat3.skew z) s)
    (he : (f s).axes.IsRotation) (hR : Mat3.HasRate R (Mat3.skew u * R s) s) :
    Mat3.HasRate (fun τ => (f τ).axes.transpose * R τ)
      (Mat3.skew ((f s).axes.transpose.apply u - z) * ((f s).axes.transpose * R s)) s := by
  refine (hf.transpose.mul hR).congr_rate ?_
  rw [Mat3.skew_sub, he.transpose.skew_apply, Mat3.transpose_transpose, Mat3.transpose_mul,
    Mat3.skew_transpose, sub_mul, ← mul_assoc (_ * _ * _), mul_assoc (_ * _) (f s).axes,
    he.mul_transpose, mul_one, mul_assoc, mul_assoc]
  noncomm_ring

/-! ## The end forces -/

/-- The moments at the ends as end forces in components of the triad. -/
noncomputable def localForce (t : Triad ℝ) (m : Ends (Vec3 ℝ)) : ElementVector ℝ :=
  (relativeSpin t.spin).i.applyTranspose m.i + (relativeSpin t.spin).j.applyTranspose m.j

/-- The end forces of two moments and an axial force. -/
noncomputable def endForce (t : Triad ℝ) (m : Ends (Vec3 ℝ)) (n : ℝ) : ElementVector ℝ :=
  Slots.map t.axes.apply (t.localForce m) + n • t.chordRow

/-- **The transposed tangent** gives the end forces of the moments that are
conjugate to spins. -/
theorem deformationTangent_transpose_apply :
    ElementMatrix.apply (t.deformationTangent tol ul).transpose p
      = t.endForce (spinMoments tol p ul) p.axial := by
  have haxial : Covectors.applyTranspose (Slots.map (fun v => ⟨v, .zero, .zero⟩) t.chordRow)
      p.j.lin = p.axial • t.chordRow := by
    refine Slots.ext_slots ?_ ?_ ?_ ?_ <;>
    · ext <;> simp [Vec3.dot_eq, Mat3.c1_eq, Mat3.c2_eq, Mat3.c3_eq, ElementVector.axial] <;> ring
  have hzero : Covectors.applyTranspose (Slots.all .zero) p.i.lin = (0 : ElementVector ℝ) := by
    refine Slots.ext_slots ?_ ?_ ?_ ?_ <;> exact Mat3.zero_apply _
  rw [ElementMatrix.transpose_apply, deformationTangent]
  simp only [hzero, haxial, Covectors.mulLeft_applyTranspose, zero_add]
  simp only [globalRelativeSpin, Ends.map, Covectors.mulDiagonal_applyTranspose,
    Mat3.transpose_transpose]
  refine Slots.ext_slots ?_ ?_ ?_ ?_ <;>
  · simp [endForce, localForce, spinMoments, Ends.zipWith]
    abel

/-- The end forces by components of the triad. -/
theorem localForce_eq (m : Ends (Vec3 ℝ)) : t.localForce m =
    let sum := m.i + m.j
    let across : Vec3 ℝ :=
      ⟨0, sum.z / t.length, -((t.mean.x / t.mean.y * sum.x + sum.y) / t.length)⟩
    let rot (own q : Vec3 ℝ) : Vec3 ℝ :=
      own - sum.x • ⟨q.y / t.mean.y / 2, -(q.x / t.mean.y / 2), 0⟩
    ⟨⟨across, rot m.i t.nodal.i⟩, ⟨-across, rot m.j t.nodal.j⟩⟩ := by
  rw [localForce, relativeSpin, spin_eq]
  simp only [Ends.map, Covectors.sub_applyTranspose]
  refine Slots.ext_slots ?_ ?_ ?_ ?_ <;>
  · ext <;> simp [Vec3.dot_eq, Mat3.c1_eq, Mat3.c2_eq, Mat3.c3_eq] <;> ring

theorem endForce_add (m m' : Ends (Vec3 ℝ)) (n n' : ℝ) :
    t.endForce (m + m') (n + n') = t.endForce m n + t.endForce m' n' := by
  refine Slots.ext_slots ?_ ?_ ?_ ?_ <;>
  · simp [endForce, localForce]
    module

/-! ## The rates inside the spin -/

/-- The rates of the nodal y-axes in components of the triad. -/
noncomputable def axisRates : Ends (Vec3 ℝ) :=
  ⟨(t.relativeSpins x).i.cross t.nodal.i, (t.relativeSpins x).j.cross t.nodal.j⟩

/-- The rate of a ratio of a component to the one of the mean y-axis. -/
noncomputable def ratioRate (rate ratio : ℝ) : ℝ :=
  (rate - ratio * (meanAxis (t.axisRates x)).y) / t.mean.y

/-- The rows of the rates of the nodal y-axes. -/
noncomputable def axisRows : Ends (Covectors ℝ) :=
  let turn := t.spin.mulDiagonal t.axes.transpose
  let back := t.axes.transpose
  ⟨Covectors.mulLeft (-(Mat3.skew t.nodal.i)) (Covectors.sub ⟨⟨0, back⟩, ⟨0, 0⟩⟩ turn),
   Covectors.mulLeft (-(Mat3.skew t.nodal.j)) (Covectors.sub ⟨⟨0, 0⟩, ⟨0, back⟩⟩ turn)⟩

/-- The rows of the rate of the mean y-axis. -/
noncomputable def meanRows : Covectors ℝ :=
  Slots.map (Mat3.scale Scalar.half) (Covectors.add t.axisRows.i t.axisRows.j)

theorem axisRows_apply : t.axisRows.i.apply x = (t.axisRates x).i
    ∧ t.axisRows.j.apply x = (t.axisRates x).j := by
  constructor <;>
  · rw [axisRows, Covectors.mulLeft_apply, Covectors.sub_apply, Covectors.mulDiagonal_apply,
      Mat3.neg_apply, Mat3.skew_apply, ← Vec3.cross_anticomm]
    simp [Covectors.apply_eq, axisRates, relativeSpins, localSpin, localize]

theorem meanRows_apply : t.meanRows.apply x = meanAxis (t.axisRates x) := by
  obtain ⟨hi, hj⟩ := t.axisRows_apply x
  have hscale : t.meanRows
      = Covectors.scale (1 / 2) (Covectors.add t.axisRows.i t.axisRows.j) := rfl
  rw [hscale, Covectors.scale_apply, Covectors.add_apply, hi, hj, meanAxis_eq]

/-- The row of a ratio of first components. -/
noncomputable def firstRow (ratio : ℝ) (a : Covectors ℝ) : ElementVector ℝ :=
  Slots.zipWith (fun m b => (b.r1 - m.r2.scale ratio).divide t.mean.y) t.meanRows a

/-- The row of a ratio of second components. -/
noncomputable def secondRow (ratio : ℝ) (a : Covectors ℝ) : ElementVector ℝ :=
  Slots.zipWith (fun m b => (b.r2 - m.r2.scale ratio).divide t.mean.y) t.meanRows a

theorem ratioRow_inner (ratio : ℝ) (a : Covectors ℝ) :
    (t.firstRow ratio a).inner x = t.ratioRate x (a.apply x).x ratio
      ∧ (t.secondRow ratio a).inner x = t.ratioRate x (a.apply x).y ratio := by
  constructor <;>
  · rw [ratioRate, ← meanRows_apply]
    simp [firstRow, secondRow, ElementVector.inner, Covectors.apply_eq]
    ring

/-- **The twist gradient acts** by the rates of the three kinds of ratios. -/
theorem twistGradient_apply : ElementMatrix.apply t.twistGradient x =
    let slope := t.ratioRate x (meanAxis (t.axisRates x)).x (t.mean.x / t.mean.y)
    let rot (q q' : Vec3 ℝ) : Vec3 ℝ :=
      ⟨t.ratioRate x q'.y (q.y / t.mean.y) / 2, -(t.ratioRate x q'.x (q.x / t.mean.y) / 2), 0⟩
    ⟨⟨⟨0, 0, slope / t.length⟩, rot t.nodal.i (t.axisRates x).i⟩,
     ⟨⟨0, 0, -(slope / t.length)⟩, rot t.nodal.j (t.axisRates x).j⟩⟩ := by
  have hlin (v : ElementVector ℝ) :
      Covectors.apply (Slots.map (fun w => ⟨.zero, .zero, w.divide t.length⟩) v) x
        = ⟨0, 0, v.inner x / t.length⟩ := by
    ext <;> simp [Covectors.apply_eq, ElementVector.inner]
    ring
  have hrot (a b : ElementVector ℝ) : Covectors.apply
      (Slots.zipWith (fun f s => ⟨s.divide 2, -(f.divide 2), .zero⟩) a b) x
        = ⟨b.inner x / 2, -(a.inner x / 2), 0⟩ := by
    ext <;> simp [Covectors.apply_eq, ElementVector.inner] <;> ring
  have hneg (v : ElementVector ℝ) :
      ElementVector.inner (Slots.map (fun w => -w) v) x = -v.inner x := by
    simp [ElementVector.inner]
    ring
  have hgrad : t.twistGradient =
      ⟨⟨Slots.map (fun w => ⟨.zero, .zero, w.divide t.length⟩)
          (t.firstRow (t.mean.x / t.mean.y) t.meanRows),
        Slots.zipWith (fun f s => ⟨s.divide 2, -(f.divide 2), .zero⟩)
          (t.firstRow (t.nodal.i.x / t.mean.y) t.axisRows.i)
          (t.secondRow (t.nodal.i.y / t.mean.y) t.axisRows.i)⟩,
       ⟨Slots.map (fun w => ⟨.zero, .zero, w.divide t.length⟩)
          (Slots.map (fun w => -w) (t.firstRow (t.mean.x / t.mean.y) t.meanRows)),
        Slots.zipWith (fun f s => ⟨s.divide 2, -(f.divide 2), .zero⟩)
          (t.firstRow (t.nodal.j.x / t.mean.y) t.axisRows.j)
          (t.secondRow (t.nodal.j.y / t.mean.y) t.axisRows.j)⟩⟩ := rfl
  obtain ⟨hi, hj⟩ := t.axisRows_apply x
  rw [hgrad]
  refine Slots.ext_slots ?_ ?_ ?_ ?_
  · exact (hlin _).trans (by rw [(t.ratioRow_inner x _ _).1, meanRows_apply])
  · exact (hrot _ _).trans (by rw [(t.ratioRow_inner x _ _).1, (t.ratioRow_inner x _ _).2, hi])
  · exact (hlin _).trans (by rw [hneg, (t.ratioRow_inner x _ _).1, meanRows_apply, neg_div])
  · exact (hrot _ _).trans (by rw [(t.ratioRow_inner x _ _).1, (t.ratioRow_inner x _ _).2, hj])

/-! ## The parts of the geometric stiffness -/

/-- The curvature acts by the stiffness of the moments at the relative
spins. -/
theorem curvatureStiffness_apply : ElementMatrix.apply (t.curvatureStiffness tol p ul) x =
    t.endForce
      ⟨(Tangent.momentStiffness tol ul.i.rot p.i.rot).apply (t.relativeSpins x).i,
       (Tangent.momentStiffness tol ul.j.rot p.j.rot).apply (t.relativeSpins x).j⟩ 0 := by
  obtain ⟨hi, hj⟩ := t.globalRelativeSpin_apply x
  rw [curvatureStiffness, ElementMatrix.add_apply, ElementMatrix.transposeMul_apply,
    ElementMatrix.transposeMul_apply, Covectors.mulLeft_apply, Covectors.mulLeft_apply, hi, hj]
  simp only [globalRelativeSpin, Ends.map, Covectors.mulDiagonal_applyTranspose,
    Mat3.transpose_transpose]
  refine Slots.ext_slots ?_ ?_ ?_ ?_ <;> simp [endForce, localForce]

/-- The chord turns with the axial force. -/
theorem chordStiffness_apply : ElementMatrix.apply (t.chordStiffness p) x =
    let turn := t.length⁻¹ • (x.j.lin - x.i.lin - t.e1.dot (x.j.lin - x.i.lin) • t.e1)
    p.axial • (⟨⟨-turn, 0⟩, ⟨turn, 0⟩⟩ : ElementVector ℝ) := by
  have hd (v : Vec3 ℝ) : (((Mat3.identity - Mat3.outer t.e1 t.e1).scale p.axial).map
      (· / t.length)).apply v = (p.axial / t.length) • (v - t.e1.dot v • t.e1) := by
    ext <;> simp [Mat3.map, Vec3.map, Vec3.dot_eq, Mat3.outer] <;> ring
  refine Slots.ext_slots ?_ ?_ ?_ ?_ <;>
    simp only [chordStiffness, ElementMatrix.apply_i_lin, ElementMatrix.apply_i_rot,
      ElementMatrix.apply_j_lin, ElementMatrix.apply_j_rot, Covectors.apply_eq, Mat3.zero_eq,
      Mat3.zero_apply, Mat3.neg_apply, hd, Vec3.dot_sub] <;>
    simp <;> module

/-- The triad carries the end forces along. -/
theorem triadStiffness_apply (m : Ends (Vec3 ℝ)) : ElementMatrix.apply (t.triadStiffness m) x =
    Slots.map (fun v => t.axes.apply (v.cross (t.localSpin x))) (t.localForce m) := by
  have hrow (v : Vec3 ℝ) : Covectors.apply (Covectors.mulLeft (t.axes * Mat3.skew v)
      (t.spin.mulDiagonal t.axes.transpose)) x = t.axes.apply (v.cross (t.localSpin x)) := by
    rw [Covectors.mulLeft_apply, Mat3.mul_apply, Mat3.skew_apply, Covectors.mulDiagonal_apply]
    rfl
  exact Slots.ext_slots (hrow _) (hrow _) (hrow _) (hrow _)

/-- The weights of the spin in the change of its length. -/
noncomputable def lengthWeights (m : Ends (Vec3 ℝ)) : Vec3 ℝ :=
  ⟨0, (t.mean.x / t.mean.y * (m.i + m.j).x + (m.i + m.j).y) / t.length, (m.i + m.j).z / t.length⟩

theorem lengthStiffness_apply (m : Ends (Vec3 ℝ)) :
    ElementMatrix.apply (t.lengthStiffness m) x = t.chordRow.inner x
      • Slots.map t.axes.apply (t.spin.applyTranspose (t.lengthWeights m)) :=
  ElementMatrix.outer_apply _ _ _

theorem twistStiffness_apply (m : Ends (Vec3 ℝ)) :
    ElementMatrix.apply (t.twistStiffness m) x = (m.i + m.j).x
      • Slots.map t.axes.apply (ElementMatrix.apply t.twistGradient x) := by
  have hrow (c : Covectors ℝ) : Covectors.apply ((Covectors.mulLeft t.axes c).scale (m.i + m.j).x) x
      = (m.i + m.j).x • t.axes.apply (c.apply x) := by
    rw [Covectors.scale_apply, Covectors.mulLeft_apply]
  exact Slots.ext_slots (hrow _) (hrow _) (hrow _) (hrow _)

/-! ## The motion of the end forces -/

section Motion

variable {x} {f : ℝ → Triad ℝ} {m : ℝ → Ends (Vec3 ℝ)} {m' : Ends (Vec3 ℝ)} {n : ℝ → ℝ} {n' s : ℝ}

/-- The mean y-axis moves with the mean of the rates. -/
theorem Moves.hasRate_mean (h : Moves f x s) :
    Vec3.HasRate (fun τ => (f τ).mean) (meanAxis ((f s).axisRates x)) s := by
  simp only [h.mean]
  exact (h.nodal_i.add h.nodal_j).const_smul (1 / 2)

/-- A ratio to the second component of the mean y-axis moves with its rate. -/
theorem Moves.hasDerivAt_ratio (h : Moves f x s) (hframe : (f s).IsFrame) {q : ℝ → ℝ} {q' : ℝ}
    (hq : HasDerivAt q q' s) : HasDerivAt (fun τ => q τ / (f τ).mean.y)
      ((f s).ratioRate x q' (q s / (f s).mean.y)) s :=
  Corotation.hasDerivAt_ratio hq h.hasRate_mean.y hframe.mean_y.ne'

/-- The weights by which a nodal y-axis drives the twist move with their rates. -/
theorem Moves.hasRate_weights (h : Moves f x s) (hframe : (f s).IsFrame) {q : ℝ → Vec3 ℝ}
    {q' : Vec3 ℝ} (hq : Vec3.HasRate q q' s) : Vec3.HasRate
      (fun τ => (⟨(q τ).y / (f τ).mean.y / 2, -((q τ).x / (f τ).mean.y / 2), 0⟩ : Vec3 ℝ))
      ⟨(f s).ratioRate x q'.y ((q s).y / (f s).mean.y) / 2,
        -((f s).ratioRate x q'.x ((q s).x / (f s).mean.y) / 2), 0⟩ s :=
  ⟨(h.hasDerivAt_ratio hframe hq.y).div_const 2,
    ((h.hasDerivAt_ratio hframe hq.x).div_const 2).neg, hasDerivAt_const s (0 : ℝ)⟩

/-- **The end forces in components of the triad** move with the moments, with
the length and with the twist ratios. -/
theorem hasRate_localForce (h : Moves f x s) (hframe : (f s).IsFrame)
    (hi : Vec3.HasRate (fun τ => (m τ).i) m'.i s) (hj : Vec3.HasRate (fun τ => (m τ).j) m'.j s) :
    ElementVector.HasRate (fun τ => (f τ).localForce (m τ))
      ((f s).localForce m'
        + (f s).chordRow.inner x • (f s).spin.applyTranspose ((f s).lengthWeights (m s))
        - ((m s).i + (m s).j).x • ElementMatrix.apply (f s).twistGradient x) s := by
  have hL : (f s).length ≠ 0 := hframe.length_pos.ne'
  have hsum := hi.add hj
  set L := (f s).length
  set L' := (f s).chordRow.inner x
  set slope := (f s).mean.x / (f s).mean.y
  set slope' := (f s).ratioRate x (meanAxis ((f s).axisRates x)).x slope
  have hslope : HasDerivAt (fun τ => (f τ).mean.x / (f τ).mean.y) slope' s :=
    h.hasDerivAt_ratio hframe h.hasRate_mean.x
  have hlever : HasDerivAt
      (fun τ => (f τ).mean.x / (f τ).mean.y * ((m τ).i + (m τ).j).x + ((m τ).i + (m τ).j).y)
      (slope' * ((m s).i + (m s).j).x + slope * (m'.i + m'.j).x + (m'.i + m'.j).y) s :=
    (hslope.mul hsum.x).add hsum.y
  have hacross : Vec3.HasRate (fun τ => (⟨0, ((m τ).i + (m τ).j).z / (f τ).length,
      -(((f τ).mean.x / (f τ).mean.y * ((m τ).i + (m τ).j).x + ((m τ).i + (m τ).j).y)
        / (f τ).length)⟩ : Vec3 ℝ))
      ⟨0, ((m'.i + m'.j).z - ((m s).i + (m s).j).z / L * L') / L,
        -((slope' * ((m s).i + (m s).j).x + slope * (m'.i + m'.j).x + (m'.i + m'.j).y
          - (slope * ((m s).i + (m s).j).x + ((m s).i + (m s).j).y) / L * L') / L)⟩ s :=
    ⟨hasDerivAt_const s (0 : ℝ), Corotation.hasDerivAt_ratio hsum.z h.length hL,
      (Corotation.hasDerivAt_ratio hlever h.length hL).neg⟩
  have hrot {own q : ℝ → Vec3 ℝ} {own' q' : Vec3 ℝ} (hown : Vec3.HasRate own own' s)
      (hq : Vec3.HasRate q q' s) : Vec3.HasRate (fun τ => own τ - ((m τ).i + (m τ).j).x
        • (⟨(q τ).y / (f τ).mean.y / 2, -((q τ).x / (f τ).mean.y / 2), 0⟩ : Vec3 ℝ))
      (own' - ((m'.i + m'.j).x
          • (⟨(q s).y / (f s).mean.y / 2, -((q s).x / (f s).mean.y / 2), 0⟩ : Vec3 ℝ)
        + ((m s).i + (m s).j).x
          • (⟨(f s).ratioRate x q'.y ((q s).y / (f s).mean.y) / 2,
            -((f s).ratioRate x q'.x ((q s).x / (f s).mean.y) / 2), 0⟩ : Vec3 ℝ))) s :=
    hown.sub (Vec3.HasRate.smul hsum.x (h.hasRate_weights hframe hq))
  simp only [localForce_eq, twistGradient_apply, spin_eq]
  refine ⟨hacross.congr_rate ?_, (hrot hi h.nodal_i).congr_rate ?_, hacross.neg.congr_rate ?_,
    (hrot hj h.nodal_j).congr_rate ?_⟩
  · ext <;> simp [lengthWeights, Vec3.dot_eq, Mat3.c1_eq, Mat3.c2_eq, Mat3.c3_eq] <;> ring
  · ext <;> simp [lengthWeights, axisRates, Vec3.dot_eq, Mat3.c1_eq, Mat3.c2_eq, Mat3.c3_eq] <;>
      ring
  · ext <;> simp [lengthWeights, Vec3.dot_eq, Mat3.c1_eq, Mat3.c2_eq, Mat3.c3_eq] <;> ring
  · ext <;> simp [lengthWeights, axisRates, Vec3.dot_eq, Mat3.c1_eq, Mat3.c2_eq, Mat3.c3_eq] <;>
      ring

/-- A local vector carried by the triad moves with the triad and in it. -/
theorem Moves.hasRate_apply (h : Moves f x s) {v : ℝ → Vec3 ℝ} {v' : Vec3 ℝ}
    (hv : Vec3.HasRate v v' s) : Vec3.HasRate (fun τ => (f τ).axes.apply (v τ))
      ((f s).axes.apply v' - (f s).axes.apply ((v s).cross ((f s).localSpin x))) s := by
  refine (h.axes.apply hv).congr_rate ?_
  rw [Mat3.mul_apply, Mat3.skew_apply, Vec3.cross_anticomm, Mat3.apply_neg]
  abel

/-- **The end forces** move with the moments and the axial force, and by every
part of the geometric stiffness but the curvature. -/
theorem hasRate_endForce (h : Moves f x s) (hframe : (f s).IsFrame)
    (hi : Vec3.HasRate (fun τ => (m τ).i) m'.i s) (hj : Vec3.HasRate (fun τ => (m τ).j) m'.j s)
    (hn : HasDerivAt n n' s) {p : ElementVector ℝ} (hp : p.axial = n s) :
    ElementVector.HasRate (fun τ => (f τ).endForce (m τ) (n τ))
      ((f s).endForce m' n' + ElementMatrix.apply ((f s).chordStiffness p) x
        - ElementMatrix.apply ((f s).triadStiffness (m s)) x
        + ElementMatrix.apply ((f s).lengthStiffness (m s)) x
        - ElementMatrix.apply ((f s).twistStiffness (m s)) x) s := by
  have hlocal := hasRate_localForce h hframe hi hj
  have haxis : Vec3.HasRate (fun τ => (f τ).e1) _ s :=
    h.axes.c1.congr_rate (Mat3.mul_c1 _ _)
  have hturn : (Mat3.skew ((f s).localSpin x)).c1
      = ((f s).localSpin x).cross ⟨1, 0, 0⟩ := by
    ext <;> simp [Mat3.skew_eq, Mat3.c1_eq]
  rw [hturn, hframe.apply_spin] at haxis
  rw [chordStiffness_apply, triadStiffness_apply, lengthStiffness_apply, twistStiffness_apply, hp]
  refine ⟨((h.hasRate_apply hlocal.i_lin).add (.smul hn haxis.neg)).congr_rate ?_,
    ((h.hasRate_apply hlocal.i_rot).add (.smul hn (.const 0 s))).congr_rate ?_,
    ((h.hasRate_apply hlocal.j_lin).add (.smul hn haxis)).congr_rate ?_,
    ((h.hasRate_apply hlocal.j_rot).add (.smul hn (.const 0 s))).congr_rate ?_⟩
  all_goals
    simp [endForce, chordRow]
    module

/-- **The end forces of moving local forces** move with the forces by the
transposed tangent, and with the ends by the geometric stiffness. -/
theorem hasRate_transposedTangent {tol : Tolerances ℝ} (hsmall : 0 < tol.smallAngle)
    (h : Moves f x s) (hframe : (f s).IsFrame) {p ul : ℝ → ElementVector ℝ} {p' : ElementVector ℝ}
    (hp : ElementVector.HasRate p p' s)
    (hi : Vec3.HasRate (fun τ => (ul τ).i.rot)
      ((Tangent.spinToVector tol (ul s).i.rot).apply ((f s).relativeSpins x).i) s)
    (hj : Vec3.HasRate (fun τ => (ul τ).j.rot)
      ((Tangent.spinToVector tol (ul s).j.rot).apply ((f s).relativeSpins x).j) s)
    (hcover : tol.CoversAround (ul s).i.rot ∧ tol.CoversAround (ul s).j.rot) :
    ElementVector.HasRate
      (fun τ => ElementMatrix.apply ((f τ).deformationTangent tol (ul τ)).transpose (p τ))
      (ElementMatrix.apply ((f s).deformationTangent tol (ul s)).transpose p'
        + ElementMatrix.apply ((f s).geometricStiffness tol (p s) (ul s)) x) s := by
  -- the moments conjugate to spins turn with the local rotations
  let turned : Ends (Vec3 ℝ) :=
    ⟨(Tangent.momentStiffness tol (ul s).i.rot (p s).i.rot).apply ((f s).relativeSpins x).i,
     (Tangent.momentStiffness tol (ul s).j.rot (p s).j.rot).apply ((f s).relativeSpins x).j⟩
  have hmi : Vec3.HasRate (fun τ => (spinMoments tol (p τ) (ul τ)).i)
      (turned + spinMoments tol p' (ul s)).i s :=
    Tangent.hasRate_pulledMoment hsmall hi hp.i_rot hcover.1
  have hmj : Vec3.HasRate (fun τ => (spinMoments tol (p τ) (ul τ)).j)
      (turned + spinMoments tol p' (ul s)).j s :=
    Tangent.hasRate_pulledMoment hsmall hj hp.j_rot hcover.2
  simp only [deformationTangent_transpose_apply]
  refine (hasRate_endForce h hframe hmi hmj hp.j_lin.x rfl).congr_rate ?_
  have hsplit := (f s).endForce_add turned (spinMoments tol p' (ul s)) 0 p'.axial
  rw [zero_add, ← curvatureStiffness_apply] at hsplit
  refine Eq.trans (congrArg (fun e => e + _ - _ + _ - _) hsplit) ?_
  rw [geometricStiffness, ElementMatrix.sub_apply, ElementMatrix.add_apply,
    ElementMatrix.sub_apply, ElementMatrix.add_apply]
  abel

end Motion

end Triad

end Corotation
