import Corotation.Element.Linearization
import Corotation.Proofs.Element.Slots
/-!
# The triad over the real numbers

A chord with a length and a mean y-axis that is not along it have a triad
(`ofAxes_eq`), and its axes are a rotation whose first axis is the direction
of the chord. The mean y-axis lies in the plane of the first two axes and has
a positive component along the second.

When the ends of the chord and the nodal axes move, the triad moves with the
spin that `Triad.spin` gives in local components (`moves_between`). The two
components of the spin across the chord are the rates of the chord's
direction; the one along it is what keeps the mean axis in its plane.
-/

open Topology

namespace Corotation

namespace Triad

variable [SeriesAngle] {tol : Tolerances ℝ} {nodal : Ends (Vec3 ℝ)} {dx : Vec3 ℝ}

/-! ## The triad of a chord -/

/-- The direction of a chord. -/
noncomputable def direction (dx : Vec3 ℝ) : Vec3 ℝ := dx.norm⁻¹ • dx

/-- The normal of the plane of a chord and a mean y-axis, as long as the
axis reaches across the chord. -/
noncomputable def normal (nodal : Ends (Vec3 ℝ)) (dx : Vec3 ℝ) : Vec3 ℝ :=
  (direction dx).cross (meanAxis nodal)

/-- The triad of a chord and two nodal y-axes, if there is one. -/
noncomputable def between (nodal : Ends (Vec3 ℝ)) (dx : Vec3 ℝ) : Triad ℝ :=
  withAxes dx.norm
    (.ofColumns (direction dx) ((direction (normal nodal dx)).cross (direction dx))
      (direction (normal nodal dx)))
    (meanAxis nodal) nodal

/-- A chord and two nodal y-axes determine a triad: the chord has a length,
and the mean of the axes reaches across it by more than the tolerance. -/
structure Determined (tol : Tolerances ℝ) (nodal : Ends (Vec3 ℝ)) (dx : Vec3 ℝ) : Prop where
  length_pos : 0 < dx.norm
  across : tol.parallel < (normal nodal dx).norm

theorem meanAxis_eq (nodal : Ends (Vec3 ℝ)) :
    meanAxis nodal = (1 / 2 : ℝ) • (nodal.i + nodal.j) := rfl

/-- The mean of one axis is the axis. -/
theorem meanAxis_both (a : Vec3 ℝ) : meanAxis (.both a) = a := by
  change (1 / 2 : ℝ) • (a + a) = a
  module

/-- **A triad is formed exactly where it is determined.** -/
theorem ofAxes_eq (h : Determined tol nodal dx) :
    ofAxes tol nodal dx = .ok (between nodal dx) := by
  have hn : (dx.divide dx.norm).cross (meanAxis nodal) = normal nodal dx := by
    rw [Vec3.divide_eq_smul]
    rfl
  unfold ofAxes
  simp only [Scalar.le_real]
  rw [hn, if_neg (not_le.mpr h.length_pos), if_neg (not_le.mpr h.across)]
  simp only [Vec3.divide_eq_smul]
  rfl

theorem determined_of_ofAxes {t : Triad ℝ} (h : ofAxes tol nodal dx = .ok t) :
    Determined tol nodal dx := by
  have hn : (dx.divide dx.norm).cross (meanAxis nodal) = normal nodal dx := by
    rw [Vec3.divide_eq_smul]
    rfl
  unfold ofAxes at h
  simp only [Scalar.le_real] at h
  rw [hn] at h
  split_ifs at h with h1 h2
  exact ⟨not_le.mp h1, not_le.mp h2⟩

/-! ## Its axes -/

/-- A triad whose axes are a rotation, with the mean y-axis in the plane of
the first two and positive along the second. -/
structure IsFrame (t : Triad ℝ) : Prop where
  length_pos : 0 < t.length
  isRotation : t.axes.IsRotation
  mean_z : t.mean.z = 0
  mean_y : 0 < t.mean.y

theorem Determined.normal_pos (h : Determined tol nodal dx) (h0 : 0 ≤ tol.parallel) :
    0 < (normal nodal dx).norm := h0.trans_lt h.across

/-- The component of the mean y-axis along the second axis is its reach across
the chord. -/
theorem between_mean_y (nodal : Ends (Vec3 ℝ)) (hn : 0 < (normal nodal dx).norm) :
    (between nodal dx).mean.y = (normal nodal dx).norm := by
  change ((direction (normal nodal dx)).cross (direction dx)).dot (meanAxis nodal) = _
  rw [← Vec3.dot_cross]
  change (direction (normal nodal dx)).dot (normal nodal dx) = _
  rw [direction, Vec3.smul_dot, ← Vec3.norm_mul_self]
  field_simp

/-- **A determined triad is a frame.** -/
theorem isFrame_between (h0 : 0 ≤ tol.parallel) (h : Determined tol nodal dx) :
    (between nodal dx).IsFrame where
  length_pos := h.length_pos
  isRotation := by
    have hu : (direction dx).dot (direction dx) = 1 := Vec3.dot_divide_norm h.length_pos
    have hw : (direction (normal nodal dx)).dot (direction (normal nodal dx)) = 1 :=
      Vec3.dot_divide_norm (h.normal_pos h0)
    have huw : (direction dx).dot (direction (normal nodal dx)) = 0 := by
      rw [direction, direction, normal, direction]
      simp
    refine Mat3.isRotation_ofColumns hu ?_ (by simp) ?_
    · rw [Vec3.cross_dot_cross, hu, hw, Vec3.dot_comm _ (direction dx), huw]
      ring
    · rw [Vec3.cross_cross, hu, huw, one_smul, zero_smul, sub_zero]
  mean_z := by
    change (direction (normal nodal dx)).dot (meanAxis nodal) = 0
    rw [direction, normal, Vec3.smul_dot, ← Vec3.dot_cross, Vec3.cross_self, Vec3.dot_zero,
      mul_zero]
  mean_y := by
    rw [between_mean_y nodal (h.normal_pos h0)]
    exact h.normal_pos h0

/-- A frame whose mean y-axis is the mean of its nodal ones. -/
structure IsMeanFrame (t : Triad ℝ) : Prop extends t.IsFrame where
  mean : t.mean = meanAxis t.nodal

/-- The mean y-axis in components of the triad. -/
theorem between_mean (nodal : Ends (Vec3 ℝ)) (dx : Vec3 ℝ) :
    (between nodal dx).mean = meanAxis (between nodal dx).nodal := by
  change (between nodal dx).axes.transpose.apply (meanAxis nodal) = _
  rw [meanAxis_eq, meanAxis_eq, Mat3.apply_smul, Mat3.apply_add]
  rfl

theorem isMeanFrame_between (h0 : 0 ≤ tol.parallel) (h : Determined tol nodal dx) :
    (between nodal dx).IsMeanFrame := ⟨isFrame_between h0 h, between_mean nodal dx⟩

/-! ## The spin in local components -/

/-- A nodal vector in components of the triad. -/
noncomputable def localize (t : Triad ℝ) (x : ElementVector ℝ) : ElementVector ℝ :=
  Slots.map t.axes.transpose.apply x

/-- The spin of the triad for given end displacements, in components of the
triad. -/
noncomputable def localSpin (t : Triad ℝ) (x : ElementVector ℝ) : Vec3 ℝ :=
  t.spin.apply (t.localize x)

/-- The spins of the nodes relative to the triad, in components of the
triad. -/
noncomputable def relativeSpins (t : Triad ℝ) (x : ElementVector ℝ) : Ends (Vec3 ℝ) :=
  ⟨(t.localize x).i.rot - t.localSpin x, (t.localize x).j.rot - t.localSpin x⟩

/-- The spin by its blocks. -/
theorem spin_eq (t : Triad ℝ) : t.spin =
    ⟨⟨⟨⟨0, 0, t.mean.x / t.mean.y / t.length⟩, ⟨0, 0, 1 / t.length⟩, ⟨0, -(1 / t.length), 0⟩⟩,
      ⟨⟨t.nodal.i.y / t.mean.y / 2, -(t.nodal.i.x / t.mean.y / 2), 0⟩, 0, 0⟩⟩,
     ⟨⟨⟨0, 0, -(t.mean.x / t.mean.y / t.length)⟩, ⟨0, 0, -(1 / t.length)⟩,
        ⟨0, 1 / t.length, 0⟩⟩,
      ⟨⟨t.nodal.j.y / t.mean.y / 2, -(t.nodal.j.x / t.mean.y / 2), 0⟩, 0, 0⟩⟩⟩ := rfl

/-- The spin by its components. -/
theorem localSpin_eq (t : Triad ℝ) (x : ElementVector ℝ) :
    t.localSpin x =
      let y := t.localize x
      let lift := (y.i.lin.z - y.j.lin.z) / t.length
      ⟨t.mean.x / t.mean.y * lift
          + (t.nodal.i.y / t.mean.y * y.i.rot.x - t.nodal.i.x / t.mean.y * y.i.rot.y) / 2
          + (t.nodal.j.y / t.mean.y * y.j.rot.x - t.nodal.j.x / t.mean.y * y.j.rot.y) / 2,
        lift, (y.j.lin.y - y.i.lin.y) / t.length⟩ := by
  rw [localSpin, spin_eq, Covectors.apply_eq]
  ext <;> simp [Vec3.dot_eq] <;> ring

/-- The first axis is the image of the first coordinate axis. -/
theorem e1_eq (t : Triad ℝ) : t.e1 = t.axes.apply ⟨1, 0, 0⟩ := by
  rw [Mat3.apply_columns]
  simp
  rfl

/-- **The spin turns the first axis** by the rate of the chord across it, over
the length. -/
theorem IsFrame.apply_spin {t : Triad ℝ} (h : t.IsFrame) (x : ElementVector ℝ) :
    t.axes.apply ((t.localSpin x).cross ⟨1, 0, 0⟩)
      = t.length⁻¹ • (x.j.lin - x.i.lin - t.e1.dot (x.j.lin - x.i.lin) • t.e1) := by
  have hd : x.j.lin - x.i.lin = t.axes.apply ((t.localize x).j.lin - (t.localize x).i.lin) := by
    rw [Mat3.apply_sub, localize, Slots.map_j_lin, Slots.map_i_lin,
      h.isRotation.apply_transpose_apply, h.isRotation.apply_transpose_apply]
  rw [hd, e1_eq, h.isRotation.dot_apply_apply, ← Mat3.apply_smul, ← Mat3.apply_sub,
    ← Mat3.apply_smul, localSpin_eq]
  congr 1
  ext <;> simp [Vec3.dot_eq] <;> ring

/-! ## The motion of a triad -/

/-- A triad moves with its ends: the length, the axes and the components of
the nodal y-axes have the rates that the displacement rate `x` gives. -/
structure Moves (f : ℝ → Triad ℝ) (x : ElementVector ℝ) (t : ℝ) : Prop where
  length : HasDerivAt (fun s => (f s).length) ((f t).chordRow.inner x) t
  axes : Mat3.HasRate (fun s => (f s).axes)
    ((f t).axes * Mat3.skew ((f t).localSpin x)) t
  nodal_i : Vec3.HasRate (fun s => (f s).nodal.i)
    (((f t).relativeSpins x).i.cross (f t).nodal.i) t
  nodal_j : Vec3.HasRate (fun s => (f s).nodal.j)
    (((f t).relativeSpins x).j.cross (f t).nodal.j) t
  mean : ∀ s, (f s).mean = meanAxis (f s).nodal

section Motion

variable {a : ℝ → Ends (Vec3 ℝ)} {c : ℝ → Vec3 ℝ} {x : ElementVector ℝ} {t : ℝ}

/-- The axes of a frame as images of the coordinate axes. -/
theorem IsFrame.between_axes (h : (between nodal dx).IsFrame) :
    direction dx = (between nodal dx).axes.apply ⟨1, 0, 0⟩
      ∧ direction (normal nodal dx) = (between nodal dx).axes.apply ⟨0, 0, 1⟩
      ∧ meanAxis nodal = (between nodal dx).axes.apply (between nodal dx).mean := by
  refine ⟨e1_eq (between nodal dx), ?_, (h.isRotation.apply_transpose_apply _).symm⟩
  rw [Mat3.apply_columns]
  simp
  rfl

/-- The direction of a moving chord turns with the spin. -/
theorem hasRate_direction (h : (between (a t) (c t)).IsFrame)
    (hc : Vec3.HasRate c (x.j.lin - x.i.lin) t) :
    Vec3.HasRate (fun s => direction (c s)) ((between (a t) (c t)).axes.apply
      (((between (a t) (c t)).localSpin x).cross ⟨1, 0, 0⟩)) t := by
  refine (hc.divide_norm h.length_pos).congr_rate ?_
  rw [h.apply_spin]
  rfl

/-- A turning nodal y-axis, in components of the triad. -/
theorem IsFrame.apply_nodal (h : (between (a t) (c t)).IsFrame) :
    x.i.rot.cross (a t).i = (between (a t) (c t)).axes.apply
        (((between (a t) (c t)).localize x).i.rot.cross (between (a t) (c t)).nodal.i)
      ∧ x.j.rot.cross (a t).j = (between (a t) (c t)).axes.apply
        (((between (a t) (c t)).localize x).j.rot.cross (between (a t) (c t)).nodal.j) := by
  have back (v : Vec3 ℝ) := h.isRotation.apply_transpose_apply v
  constructor
  · rw [h.isRotation.apply_cross, localize, Slots.map_i_rot, back]
    exact congrArg _ (back _).symm
  · rw [h.isRotation.apply_cross, localize, Slots.map_j_rot, back]
    exact congrArg _ (back _).symm

/-- The mean y-axis of moving nodal axes. -/
theorem hasRate_meanAxis (h : (between (a t) (c t)).IsFrame)
    (hi : Vec3.HasRate (fun s => (a s).i) (x.i.rot.cross (a t).i) t)
    (hj : Vec3.HasRate (fun s => (a s).j) (x.j.rot.cross (a t).j) t) :
    Vec3.HasRate (fun s => meanAxis (a s)) ((between (a t) (c t)).axes.apply ((1 / 2 : ℝ) •
      (((between (a t) (c t)).localize x).i.rot.cross (between (a t) (c t)).nodal.i
        + ((between (a t) (c t)).localize x).j.rot.cross (between (a t) (c t)).nodal.j))) t := by
  refine ((hi.add hj).const_smul (1 / 2)).congr_rate ?_
  obtain ⟨hxi, hxj⟩ := h.apply_nodal (x := x)
  rw [hxi, hxj, Mat3.apply_smul, Mat3.apply_add]

/-- **The normal turns with the spin**, since the mean axis stays in the plane
across it. -/
theorem hasRate_normal (h : (between (a t) (c t)).IsFrame)
    (hpos : 0 < (normal (a t) (c t)).norm) (hc : Vec3.HasRate c (x.j.lin - x.i.lin) t)
    (hi : Vec3.HasRate (fun s => (a s).i) (x.i.rot.cross (a t).i) t)
    (hj : Vec3.HasRate (fun s => (a s).j) (x.j.rot.cross (a t).j) t) :
    Vec3.HasRate (fun s => direction (normal (a s) (c s))) ((between (a t) (c t)).axes.apply
      (((between (a t) (c t)).localSpin x).cross ⟨0, 0, 1⟩)) t := by
  have hrate := ((hasRate_direction h hc).cross (hasRate_meanAxis h hi hj)).divide_norm hpos
  refine hrate.congr_rate ?_
  obtain ⟨hx, hz, hq⟩ := h.between_axes
  have hmean := between_mean_y (a t) hpos
  have hmean_z := h.mean_z
  change (normal (a t) (c t)).norm⁻¹ • (_ - (direction (normal (a t) (c t))).dot _
    • direction (normal (a t) (c t))) = _
  rw [hz, hx, hq, ← h.isRotation.apply_cross, ← h.isRotation.apply_cross, ← Mat3.apply_add,
    h.isRotation.dot_apply_apply, ← Mat3.apply_smul, ← Mat3.apply_sub, ← Mat3.apply_smul,
    ← hmean, localSpin_eq]
  congr 1
  have hne : (between (a t) (c t)).mean.y ≠ 0 := h.mean_y.ne'
  ext <;> simp [Vec3.dot_eq, hmean_z]
  · field_simp
  · field_simp
    ring

/-- **The axes turn with the spin.** -/
theorem hasRate_axes (h : (between (a t) (c t)).IsFrame)
    (hpos : 0 < (normal (a t) (c t)).norm) (hc : Vec3.HasRate c (x.j.lin - x.i.lin) t)
    (hi : Vec3.HasRate (fun s => (a s).i) (x.i.rot.cross (a t).i) t)
    (hj : Vec3.HasRate (fun s => (a s).j) (x.j.rot.cross (a t).j) t) :
    Mat3.HasRate (fun s => (between (a s) (c s)).axes)
      ((between (a t) (c t)).axes * Mat3.skew ((between (a t) (c t)).localSpin x)) t := by
  have hdir := hasRate_direction h hc
  have hnormal := hasRate_normal h hpos hc hi hj
  obtain ⟨hx, hz, -⟩ := h.between_axes
  refine .of_columns (hdir.congr_rate ?_) ((hnormal.cross hdir).congr_rate ?_)
    (hnormal.congr_rate ?_)
  · rw [Mat3.mul_c1]
    congr 1
    ext <;> simp [Mat3.skew_eq, Mat3.c1_eq]
  · rw [Mat3.mul_c2, hx, hz, ← h.isRotation.apply_cross, ← h.isRotation.apply_cross,
      ← Mat3.apply_add]
    congr 1
    ext <;> simp [Mat3.skew_eq, Mat3.c2_eq]
  · rw [Mat3.mul_c3]
    congr 1
    ext <;> simp [Mat3.skew_eq, Mat3.c3_eq]

/-- A turning vector in components of turning axes turns with the difference of
the spins. -/
theorem hasRate_component {m : ℝ → Mat3 ℝ} {w : Vec3 ℝ} (hm : (m t).IsRotation)
    (haxes : Mat3.HasRate m (m t * Mat3.skew w) t) {q : ℝ → Vec3 ℝ} {u : Vec3 ℝ}
    (hq : Vec3.HasRate q (u.cross (q t)) t) :
    Vec3.HasRate (fun s => (m s).transpose.apply (q s))
      (((m t).transpose.apply u - w).cross ((m t).transpose.apply (q t))) t := by
  refine (haxes.transpose.apply hq).congr_rate ?_
  rw [Mat3.transpose_mul, Mat3.skew_transpose, Mat3.mul_apply, Mat3.neg_apply, Mat3.skew_apply,
    hm.transpose.apply_cross, Vec3.sub_cross]
  abel

/-- **The triad moves with its ends.** -/
theorem moves_between (h0 : 0 ≤ tol.parallel) (hdet : Determined tol (a t) (c t))
    (hc : Vec3.HasRate c (x.j.lin - x.i.lin) t)
    (hi : Vec3.HasRate (fun s => (a s).i) (x.i.rot.cross (a t).i) t)
    (hj : Vec3.HasRate (fun s => (a s).j) (x.j.rot.cross (a t).j) t) :
    Moves (fun s => between (a s) (c s)) x t := by
  have h := isFrame_between h0 hdet
  have haxes := hasRate_axes h (hdet.normal_pos h0) hc hi hj
  refine ⟨(hc.norm hdet.length_pos).congr_deriv ?_, haxes,
    hasRate_component h.isRotation haxes hi, hasRate_component h.isRotation haxes hj, fun s => ?_⟩
  · change (direction (c t)).dot _ = _
    have hrow : (between (a t) (c t)).chordRow
        = ⟨⟨-direction (c t), 0⟩, ⟨direction (c t), 0⟩⟩ := rfl
    rw [hrow, ElementVector.inner]
    simp
    ring
  · exact between_mean (a s) (c s)

/-- **Where a triad is determined it is determined nearby**, while the chord and the nodal
y-axes move. -/
theorem eventually_determined {c' u v : Vec3 ℝ} (hdet : Determined tol (a t) (c t))
    (hc : Vec3.HasRate c c' t) (hi : Vec3.HasRate (fun s => (a s).i) u t)
    (hj : Vec3.HasRate (fun s => (a s).j) v t) :
    ∀ᶠ s in 𝓝 t, Determined tol (a s) (c s) := by
  have hnormal := (hc.divide_norm hdet.length_pos).cross ((hi.add hj).const_smul (1 / 2))
  filter_upwards [hc.continuousAt_norm.eventually_const_lt hdet.length_pos,
    hnormal.continuousAt_norm.eventually_const_lt hdet.across] with s hlength hacross
  exact ⟨hlength, hacross⟩

end Motion

end Triad

end Corotation
