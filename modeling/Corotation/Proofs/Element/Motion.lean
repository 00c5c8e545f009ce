import Corotation.Proofs.Element.Formation
import Corotation.Proofs.Element.Linearization
/-!
# The motion of a formed triad

While the ends of an element move, its triad is formed anew at every moment from the chord and
the nodal rotations. To be accepted is a matter of strict inequalities, so a triad that is formed
at one moment is formed at every moment near it. Its rates there are those of the linearization
(`formed_triad_moves`): the axes turn with the spin, the length follows the chord, and the twist
of the spin changes by the twist gradient and with the length that its linear part is divided
by. None of this asks for a straight element, nor for the nodal rotations to be near the triad.
-/

open Topology

namespace Corotation

variable [SeriesAngle]

/-- The linear part of a nodal vector. -/
noncomputable def ElementVector.linearPart (p : ElementVector ℝ) : ElementVector ℝ :=
  ⟨⟨p.i.lin, 0⟩, ⟨p.j.lin, 0⟩⟩

namespace Triad

variable {f : ℝ → Triad ℝ} {x : ElementVector ℝ} {s : ℝ}

/-- The first row of the spin: how the triad twists about its chord. -/
noncomputable def twistRow (t : Triad ℝ) : ElementVector ℝ := Slots.map Mat3.r1 t.spin

/-- The twist by its blocks. -/
theorem twistRow_eq (t : Triad ℝ) : t.twistRow =
    ⟨⟨⟨0, 0, t.mean.x / t.mean.y / t.length⟩,
      ⟨t.nodal.i.y / t.mean.y / 2, -(t.nodal.i.x / t.mean.y / 2), 0⟩⟩,
     ⟨⟨0, 0, -(t.mean.x / t.mean.y / t.length)⟩,
      ⟨t.nodal.j.y / t.mean.y / 2, -(t.nodal.j.x / t.mean.y / 2), 0⟩⟩⟩ := by
  rw [twistRow, spin_eq]
  rfl

/-- The axes turn with the spin in global components. -/
theorem Moves.hasRate_axes (h : Moves f x s) (hframe : (f s).IsFrame) :
    Mat3.HasRate (fun τ => (f τ).axes)
      (Mat3.skew ((f s).axes.apply ((f s).localSpin x)) * (f s).axes) s := by
  refine h.axes.congr_rate ?_
  rw [hframe.isRotation.skew_apply, mul_assoc, hframe.isRotation.transpose_mul, mul_one]

/-- **The twist of the spin** moves by the twist gradient, and its linear part with the
length. -/
theorem Moves.hasRate_twistRow (h : Moves f x s) (hframe : (f s).IsFrame) :
    ElementVector.HasRate (fun τ => (f τ).twistRow)
      (ElementMatrix.apply (f s).twistGradient x
        + (-((f s).chordRow.inner x / (f s).length)) • (f s).twistRow.linearPart) s := by
  have hL : (f s).length ≠ 0 := hframe.length_pos.ne'
  have hslope :=
    Corotation.hasDerivAt_ratio (h.hasDerivAt_ratio hframe h.hasRate_mean.x) h.length hL
  have hlin {q : ℝ → ℝ} {q' : ℝ} (hq : HasDerivAt q q' s) :
      Vec3.HasRate (fun τ => (⟨0, 0, q τ⟩ : Vec3 ℝ)) ⟨0, 0, q'⟩ s :=
    ⟨hasDerivAt_const s (0 : ℝ), hasDerivAt_const s (0 : ℝ), hq⟩
  simp only [twistRow_eq, twistGradient_apply]
  refine ⟨(hlin hslope).congr_rate ?_, (h.hasRate_weights hframe h.nodal_i).congr_rate ?_,
    (hlin hslope.neg).congr_rate ?_, (h.hasRate_weights hframe h.nodal_j).congr_rate ?_⟩
  · ext <;> simp [ElementVector.linearPart]
    ring
  · ext <;> simp [ElementVector.linearPart, axisRates]
  · ext <;> simp [ElementVector.linearPart]
    ring
  · ext <;> simp [ElementVector.linearPart, axisRates]

end Triad

namespace Formation

variable {tol : Tolerances ℝ} {R : ℝ → Ends (Mat3 ℝ)} {p : ℝ → Ends (Vec3 ℝ)}
variable {v : ElementVector ℝ} {t : ℝ}

/-- The call at a moment of a motion. -/
noncomputable def moving (R : ℝ → Ends (Mat3 ℝ)) (p : ℝ → Ends (Vec3 ℝ)) (s : ℝ) : Formation ℝ :=
  .update (R s) ((p s).j - (p s).i)

/-- The ends move: their positions with the rates `lin`, and their rotations with the spatial
spins `rot`. -/
structure IsMotion (R : ℝ → Ends (Mat3 ℝ)) (p : ℝ → Ends (Vec3 ℝ)) (v : ElementVector ℝ)
    (t : ℝ) : Prop where
  i_lin : Vec3.HasRate (fun s => (p s).i) v.i.lin t
  i_rot : Mat3.HasRate (fun s => (R s).i) (Mat3.skew v.i.rot * (R t).i) t
  j_lin : Vec3.HasRate (fun s => (p s).j) v.j.lin t
  j_rot : Mat3.HasRate (fun s => (R s).j) (Mat3.skew v.j.rot * (R t).j) t

theorem IsMotion.hasRate_chord (h : IsMotion R p v t) :
    Vec3.HasRate (fun s => (moving R p s).chord) (v.j.lin - v.i.lin) t := h.j_lin.sub h.i_lin

/-- The nodal y-axes turn with the nodes. -/
theorem IsMotion.hasRate_axis (h : IsMotion R p v t) :
    Vec3.HasRate (fun s => (moving R p s).axis.i) (v.i.rot.cross (moving R p t).axis.i) t
      ∧ Vec3.HasRate (fun s => (moving R p s).axis.j) (v.j.rot.cross (moving R p t).axis.j) t :=
  ⟨h.i_rot.c2.congr_rate (by rw [Mat3.mul_c2, Mat3.skew_apply]; rfl),
    h.j_rot.c2.congr_rate (by rw [Mat3.mul_c2, Mat3.skew_apply]; rfl)⟩

/-- **A formed triad moves as its linearization says.** While the ends move, a call that is
accepted is accepted at every moment near. Whatever triads the calls put theirs in place of, the
axes then turn with the spin, the length has the rate of the chord row, and the first row of the
spin has the rate of the twist gradient, less its linear part by the relative rate of the
length. -/
theorem formed_triad_moves (h0 : 0 ≤ tol.parallel) (hmotion : IsMotion R p v t)
    (hok : (moving R p t).IsAccepted tol) (former : ℝ → Triad ℝ) :
    let τ := fun s => ((moving R p s).perform tol (former s)).state
    let z := (τ t).localSpin v
    let rate := (τ t).chordRow.inner v
    (∀ᶠ s in 𝓝 t, (moving R p s).IsAccepted tol)
      ∧ Mat3.HasRate (fun s => (τ s).axes) (Mat3.skew ((τ t).axes.apply z) * (τ t).axes) t
      ∧ HasDerivAt (fun s => (τ s).length) rate t
      ∧ ElementVector.HasRate (fun s => (τ s).twistRow)
          (ElementMatrix.apply (τ t).twistGradient v
            + (-(rate / (τ t).length)) • (τ t).twistRow.linearPart) t := by
  intro τ z rate
  have hdet := isAccepted_iff.mp hok
  obtain ⟨hi, hj⟩ := hmotion.hasRate_axis
  have hmoves := Triad.moves_between h0 hdet hmotion.hasRate_chord hi hj
  have hframe := Triad.isFrame_between h0 hdet
  have hnear := Triad.eventually_determined hdet hmotion.hasRate_chord hi hj
  have hτ : τ =ᶠ[𝓝 t] fun s => .between (moving R p s).axis (moving R p s).chord :=
    hnear.mono fun s hs => congrArg Outcome.state (perform_of_determined hs (former s))
  have haxes := (hmoves.hasRate_axes hframe).congr_of_eventuallyEq
    (hτ.mono fun s hs => congrArg Triad.axes hs)
  have hlength := hmoves.length.congr_of_eventuallyEq (hτ.mono fun s hs => congrArg Triad.length hs)
  have htwist := (hmoves.hasRate_twistRow hframe).congr_of_eventuallyEq
    (hτ.mono fun s hs => congrArg Triad.twistRow hs)
  have hhere : τ t = .between (moving R p t).axis (moving R p t).chord := hτ.self_of_nhds
  rw [← hhere] at haxes hlength htwist
  exact ⟨hnear.mono fun s hs => isAccepted_iff.mpr hs, haxes, hlength, htwist⟩

/-! ## A motion of an inclined element -/

/-- A chord in a plane rises out of it. -/
noncomputable def risingPositions (a b s : ℝ) : Ends (Vec3 ℝ) := ⟨0, ⟨a, b, s⟩⟩

/-- The first end turns meanwhile. -/
noncomputable def risingRotations (s : ℝ) : Ends (Mat3 ℝ) :=
  ⟨(Versor.turn (s • ⟨1, 0, 0⟩)).toMatrix, 1⟩

/-- The rates at the start. -/
noncomputable def risingRate : ElementVector ℝ := ⟨⟨0, ⟨1, 0, 0⟩⟩, ⟨⟨0, 0, 1⟩, 0⟩⟩

theorem isMotion_rising (h0 : 0 ≤ SeriesAngle.angle) :
    IsMotion risingRotations (risingPositions 4 3) risingRate 0 where
  i_lin := .const 0 0
  i_rot := by
    refine (Versor.hasRate_turn_toMatrix h0 ⟨1, 0, 0⟩).congr_rate ?_
    rw [risingRotations, zero_smul, Versor.turn_zero, Versor.toMatrix_identity, mul_one]
    rfl
  j_lin := ⟨hasDerivAt_const 0 (4 : ℝ), hasDerivAt_const 0 (3 : ℝ), hasDerivAt_id 0⟩
  j_rot := by
    refine (Mat3.HasRate.const 1 0).congr_rate ?_
    rw [risingRate, Mat3.skew_zero, zero_mul]

/-- The chord and the nodal y-axes at the start. -/
theorem rising_start : (moving risingRotations (risingPositions 4 3) 0).chord = ⟨4, 3, 0⟩
    ∧ (moving risingRotations (risingPositions 4 3) 0).axis = .both ⟨0, 1, 0⟩ := by
  constructor
  · ext <;> simp [moving, chord, risingPositions]
  · rw [axis, moving, rotation, risingRotations, zero_smul, Versor.turn_zero,
      Versor.toMatrix_identity]
    rfl

/-- The chord has length five, and the mean nodal y-axis reaches three fifths along it and four
fifths across. -/
theorem rising_triad : (⟨4, 3, 0⟩ : Vec3 ℝ).norm = 5
    ∧ (Triad.normal (.both ⟨0, 1, 0⟩) ⟨4, 3, 0⟩).norm = 4 / 5
    ∧ (Triad.between (.both ⟨0, 1, 0⟩) ⟨4, 3, 0⟩).mean.x = 3 / 5
    ∧ (Triad.between (.both ⟨0, 1, 0⟩) ⟨4, 3, 0⟩).mean.y = 4 / 5 := by
  have hnorm {v : Vec3 ℝ} {a : ℝ} (ha : 0 ≤ a) (h : v.dot v = a * a) : v.norm = a := by
    rw [Vec3.norm_eq, h, Real.sqrt_mul_self ha]
  have hlength : (⟨4, 3, 0⟩ : Vec3 ℝ).norm = 5 :=
    hnorm (by norm_num) (by norm_num [Vec3.dot_eq])
  have hnormal : Triad.normal (.both ⟨0, 1, 0⟩) ⟨4, 3, 0⟩ = ⟨0, 0, 4 / 5⟩ := by
    rw [Triad.normal, Triad.direction, hlength, Triad.meanAxis_both]
    ext <;> simp
    norm_num
  have hreach : (Triad.normal (.both ⟨0, 1, 0⟩) ⟨4, 3, 0⟩).norm = 4 / 5 := by
    rw [hnormal]
    exact hnorm (by norm_num) (by norm_num [Vec3.dot_eq])
  refine ⟨hlength, hreach, ?_, ?_⟩
  · change (Triad.direction ⟨4, 3, 0⟩).dot (Triad.meanAxis (.both ⟨0, 1, 0⟩)) = _
    rw [Triad.direction, hlength, Triad.meanAxis_both]
    norm_num [Vec3.dot_eq]
  · rw [Triad.between_mean_y _ (by rw [hreach]; norm_num), hreach]

omit [SeriesAngle] in
/-- The inclined element starts with the mean nodal y-axis three quarters as far along the chord
as across it, and its triad moves as its linearization says. -/
theorem formed_triad_moves_rising :
    letI : SeriesAngle := .exact
    let τ := fun s =>
      ((moving risingRotations (risingPositions 4 3) s).perform .standard .unset).state
    0 ≤ (Tolerances.standard : Tolerances ℝ).parallel
      ∧ IsMotion risingRotations (risingPositions 4 3) risingRate 0
      ∧ (moving risingRotations (risingPositions 4 3) 0).IsAccepted .standard
      ∧ (τ 0).length = 5 ∧ (τ 0).mean.x / (τ 0).mean.y = 3 / 4
      ∧ ElementVector.HasRate (fun s => (τ s).twistRow)
          (ElementMatrix.apply (τ 0).twistGradient risingRate
            + (-((τ 0).chordRow.inner risingRate / (τ 0).length))
              • (τ 0).twistRow.linearPart) 0 := by
  let _ : SeriesAngle := .exact
  intro τ
  have hp : 0 ≤ (Tolerances.standard : Tolerances ℝ).parallel := by
    change (0 : ℝ) ≤ 1 / 1000000000000
    norm_num
  have hmotion := isMotion_rising (le_refl (0 : ℝ))
  obtain ⟨hchord, haxis⟩ := rising_start
  obtain ⟨hlength, hreach, hmean_x, hmean_y⟩ := rising_triad
  have hdet : Triad.Determined .standard (moving risingRotations (risingPositions 4 3) 0).axis
      (moving risingRotations (risingPositions 4 3) 0).chord := by
    rw [hchord, haxis]
    refine ⟨hlength ▸ by norm_num, ?_⟩
    rw [hreach]
    change (1 : ℝ) / 1000000000000 < _
    norm_num
  have hstart : τ 0 = .between (.both ⟨0, 1, 0⟩) ⟨4, 3, 0⟩ := by
    rw [← hchord, ← haxis]
    exact congrArg Outcome.state (perform_of_determined hdet _)
  have hok := isAccepted_iff.mpr hdet
  obtain ⟨-, -, -, htwist⟩ := formed_triad_moves hp hmotion hok fun _ => .unset
  refine ⟨hp, hmotion, hok, ?_, ?_, htwist⟩
  · rw [hstart]
    exact hlength
  · rw [hstart, hmean_x, hmean_y]
    norm_num

end Formation

end Corotation
