import Corotation.Proofs.Element.Equilibrium
/-!
# The asymmetry of the geometric stiffness

For a pair of rates the parts of the geometric stiffness fail to be symmetric by
different amounts: the curvature by the moments with the products of the relative
spins, the triad by the forces it carries, the length and the twist ratios by the
rates of the spin. The chord part is symmetric. What they leave together is small
because the spin is that of a rotation: its rates along two motions differ by
the product of the spins (`spin_structure`). So only the nodal moments remain,
each with the product of the spins of its node (`geometricStiffness_asymmetry`).
-/

namespace Corotation

namespace Triad

variable [SeriesAngle] {tol : Tolerances ℝ} (t : Triad ℝ) (x y z p ul : ElementVector ℝ)

open ElementMatrix (asymmetry)

/-! ## Powers -/

/-- The power of nodal forces given in components of the triad. -/
theorem inner_map_axes (v : ElementVector ℝ) :
    x.inner (Slots.map t.axes.apply v) = v.inner (t.localize x) := by
  simp only [ElementVector.inner_eq, localize, Slots.map_i_lin, Slots.map_i_rot, Slots.map_j_lin,
    Slots.map_j_rot, Mat3.dot_apply, Vec3.dot_comm (t.axes.transpose.apply _)]

/-- The power of the end forces of two moments, in components of the triad. -/
theorem localForce_inner (m : Ends (Vec3 ℝ)) : (t.localForce m).inner z
    = m.i.dot (z.i.rot - t.spin.apply z) + m.j.dot (z.j.rot - t.spin.apply z) := by
  rw [localForce, ElementVector.add_inner, Covectors.inner_applyTranspose,
    Covectors.inner_applyTranspose]
  simp only [relativeSpin, Ends.map, Covectors.sub_apply]
  simp [Covectors.apply_eq]

/-- **Moments work on the relative spins, an axial force on the length.** -/
theorem inner_endForce (m : Ends (Vec3 ℝ)) (n : ℝ) : x.inner (t.endForce m n)
    = m.i.dot (t.relativeSpins x).i + m.j.dot (t.relativeSpins x).j + n * t.chordRow.inner x := by
  rw [endForce, ElementVector.inner_add, inner_map_axes, localForce_inner,
    ElementVector.inner_smul, ElementVector.inner_comm x]
  rfl

/-! ## The rate of the spin -/

/-- The rate at which the spin of the rate `x` changes along the rate `y`, at
fixed components of both. -/
noncomputable def spinRate (x y : ElementVector ℝ) : Vec3 ℝ :=
  let stretch := t.chordRow.inner y / t.length
  ⟨(t.localize x).inner (ElementMatrix.apply t.twistGradient y)
      - stretch * (t.mean.x / t.mean.y * (t.localSpin x).y),
    -(stretch * (t.localSpin x).y), -(stretch * (t.localSpin x).z)⟩

/-- The spin by its components. -/
theorem spin_apply : t.spin.apply z =
    ⟨t.mean.x / t.mean.y * ((z.i.lin.z - z.j.lin.z) / t.length)
        + (t.nodal.i.y / t.mean.y * z.i.rot.x - t.nodal.i.x / t.mean.y * z.i.rot.y) / 2
        + (t.nodal.j.y / t.mean.y * z.j.rot.x - t.nodal.j.x / t.mean.y * z.j.rot.y) / 2,
      (z.i.lin.z - z.j.lin.z) / t.length, (z.j.lin.y - z.i.lin.y) / t.length⟩ := by
  rw [spin_eq, Covectors.apply_eq]
  ext <;> simp [Vec3.dot_eq] <;> ring

/-- The rate of the length in components of the triad. -/
theorem chordRow_inner_local :
    t.chordRow.inner y = (t.localize y).j.lin.x - (t.localize y).i.lin.x := by
  rw [chordRow_inner, e1_eq, Mat3.apply_dot, Mat3.apply_sub]
  simp [localize, Vec3.dot_eq]

/-- **The structure of the spin.** Along two motions the rates of the spin, with
what the turning triad adds, differ by the product of the spins and by what the
products of the nodal spins contribute. -/
theorem spin_structure (h : t.IsMeanFrame) :
    t.spin.apply (Slots.map (t.localSpin y).cross (t.localize x))
        - t.spin.apply (Slots.map (t.localSpin x).cross (t.localize y))
        - t.spinRate x y + t.spinRate y x
      = (t.localSpin y).cross (t.localSpin x)
        + t.spin.apply ⟨⟨0, (t.localize y).i.rot.cross (t.localize x).i.rot⟩,
            ⟨0, (t.localize y).j.rot.cross (t.localize x).j.rot⟩⟩ := by
  have hL : t.length ≠ 0 := h.length_pos.ne'
  have hq : t.mean.y ≠ 0 := h.mean_y.ne'
  have hz := h.mean_z
  have hmean := h.mean
  rw [meanAxis_eq] at hmean
  -- the second nodal axis from the first one and the mean
  have hjx : t.nodal.j.x = 2 * t.mean.x - t.nodal.i.x := by
    rw [hmean, Vec3.smul_x, Vec3.add_x]
    ring
  have hjy : t.nodal.j.y = 2 * t.mean.y - t.nodal.i.y := by
    rw [hmean, Vec3.smul_y, Vec3.add_y]
    ring
  have hjz : t.nodal.j.z = -t.nodal.i.z := by
    rw [hmean, Vec3.smul_z, Vec3.add_z] at hz
    linarith
  have hspin (z : ElementVector ℝ) : t.localSpin z = t.spin.apply (t.localize z) := rfl
  simp only [spinRate, twistGradient_apply, ratioRate, axisRates, relativeSpins,
    chordRow_inner_local, hspin]
  generalize t.localize x = a
  generalize t.localize y = b
  clear hmean hspin
  simp only [spin_apply, meanAxis_eq, ElementVector.inner_eq, Slots.map_i_lin, Slots.map_i_rot,
    Slots.map_j_lin, Slots.map_j_rot]
  ext
  · simp only [Vec3.add_x, Vec3.add_y, Vec3.sub_x, Vec3.sub_y, Vec3.sub_z, Vec3.cross_x,
      Vec3.cross_y, Vec3.cross_z, Vec3.dot_eq, Vec3.smul_x, Vec3.smul_y, Vec3.zero_z, hjx, hjy, hjz]
    field_simp
    ring
  · simp only [Vec3.add_y, Vec3.sub_y, Vec3.cross_x, Vec3.cross_y, Vec3.cross_z, Vec3.zero_z]
    field_simp
    ring
  · simp only [Vec3.add_z, Vec3.sub_z, Vec3.cross_x, Vec3.cross_y, Vec3.cross_z, Vec3.zero_y]
    field_simp
    ring

/-! ## The parts -/

/-- The curvature leaves the moments with the products of the relative
spins. -/
theorem curvatureStiffness_asymmetry (hi : tol.Covers ul.i.rot) (hj : tol.Covers ul.j.rot) :
    asymmetry (t.curvatureStiffness tol p ul) x y
      = (spinMoments tol p ul).i.dot ((t.relativeSpins x).i.cross (t.relativeSpins y).i)
        + (spinMoments tol p ul).j.dot ((t.relativeSpins x).j.cross (t.relativeSpins y).j) := by
  have hmi := Tangent.momentStiffness_asymmetry p.i.rot hi (t.relativeSpins x).i
    (t.relativeSpins y).i
  have hmj := Tangent.momentStiffness_asymmetry p.j.rot hj (t.relativeSpins x).j
    (t.relativeSpins y).j
  rw [asymmetry, curvatureStiffness_apply, curvatureStiffness_apply, inner_endForce, inner_endForce]
  simp only [Vec3.dot_comm (Mat3.apply _ _)]
  simp only [spinMoments, Ends.zipWith]
  linear_combination hmi + hmj

/-- The rotation of the chord is symmetric. -/
theorem chordStiffness_asymmetry : asymmetry (t.chordStiffness p) x y = 0 := by
  rw [asymmetry, chordStiffness_apply, chordStiffness_apply]
  simp [ElementVector.inner_eq, Vec3.dot_eq]
  ring

/-- The turning triad leaves the moments on the vectors it carries along. -/
theorem triadStiffness_asymmetry (m : Ends (Vec3 ℝ)) : asymmetry (t.triadStiffness m) x y
    = (t.localForce m).inner (Slots.map (t.localSpin y).cross (t.localize x))
      - (t.localForce m).inner (Slots.map (t.localSpin x).cross (t.localize y)) := by
  have hpower (x y : ElementVector ℝ) : x.inner (ElementMatrix.apply (t.triadStiffness m) y)
      = (t.localForce m).inner (Slots.map (t.localSpin y).cross (t.localize x)) := by
    have hmap : ElementMatrix.apply (t.triadStiffness m) y = Slots.map t.axes.apply
        (Slots.map (fun v => v.cross (t.localSpin y)) (t.localForce m)) :=
      triadStiffness_apply t y m
    rw [hmap, inner_map_axes]
    simp only [ElementVector.inner_eq, Slots.map_i_lin, Slots.map_i_rot, Slots.map_j_lin,
      Slots.map_j_rot, Vec3.dot_cross]
  rw [asymmetry, hpower, hpower]

/-- The length and the twist ratios leave the moments on the rates of the
spin. -/
theorem lengthStiffness_sub_twistStiffness_asymmetry (m : Ends (Vec3 ℝ)) :
    asymmetry (t.lengthStiffness m) x y - asymmetry (t.twistStiffness m) x y
      = (m.i + m.j).dot (t.spinRate y x - t.spinRate x y) := by
  have hpower (x y : ElementVector ℝ) : x.inner (ElementMatrix.apply (t.lengthStiffness m) y)
      - x.inner (ElementMatrix.apply (t.twistStiffness m) y)
        = -(m.i + m.j).dot (t.spinRate x y) := by
    rw [lengthStiffness_apply, twistStiffness_apply, ElementVector.inner_smul,
      ElementVector.inner_smul, inner_map_axes, inner_map_axes, Covectors.inner_applyTranspose,
      ElementVector.inner_comm _ (t.localize x)]
    change t.chordRow.inner y * (t.lengthWeights m).dot (t.localSpin x) - _ = _
    simp only [lengthWeights, spinRate, Vec3.dot_eq]
    ring
  rw [asymmetry, asymmetry, Vec3.dot_sub]
  linear_combination hpower x y - hpower y x

/-- The end moments with the products of the nodal spins, in components of the
triad. -/
theorem endForce_cross (h : t.IsMeanFrame) (m : Ends (Vec3 ℝ)) (n : ℝ) :
    x.i.rot.dot ((t.endForce m n).i.rot.cross y.i.rot)
        + x.j.rot.dot ((t.endForce m n).j.rot.cross y.j.rot)
      = (t.localForce m).inner ⟨⟨0, (t.localize y).i.rot.cross (t.localize x).i.rot⟩,
          ⟨0, (t.localize y).j.rot.cross (t.localize x).j.rot⟩⟩ := by
  have hlocal (l u v : Vec3 ℝ) : u.dot ((t.axes.apply l).cross v)
      = l.dot ((t.axes.transpose.apply v).cross (t.axes.transpose.apply u)) := by
    nth_rewrite 1 [← h.isRotation.apply_transpose_apply v]
    rw [← h.isRotation.apply_cross, Mat3.dot_apply, Vec3.dot_comm, ← Vec3.dot_cross]
  have hi : (t.endForce m n).i.rot = t.axes.apply (t.localForce m).i.rot := by
    simp [endForce, chordRow]
  have hj : (t.endForce m n).j.rot = t.axes.apply (t.localForce m).j.rot := by
    simp [endForce, chordRow]
  rw [hi, hj, hlocal, hlocal]
  simp [ElementVector.inner_eq, localize]

/-- **The asymmetry of the geometric stiffness** is that of the end moments, each
with the product of the spins of its node. -/
theorem geometricStiffness_asymmetry (h : t.IsMeanFrame) (hi : tol.Covers ul.i.rot)
    (hj : tol.Covers ul.j.rot) :
    let f := t.endForce (spinMoments tol p ul) p.axial
    asymmetry (t.geometricStiffness tol p ul) x y
      = -(x.i.rot.dot (f.i.rot.cross y.i.rot) + x.j.rot.dot (f.j.rot.cross y.j.rot)) := by
  intro f
  have hf : x.i.rot.dot (f.i.rot.cross y.i.rot) + x.j.rot.dot (f.j.rot.cross y.j.rot) = _ :=
    t.endForce_cross x y h (spinMoments tol p ul) p.axial
  have hcurvature := t.curvatureStiffness_asymmetry x y p ul hi hj
  rw [hf, geometricStiffness]
  generalize spinMoments tol p ul = m at hcurvature ⊢
  have hrates := t.lengthStiffness_sub_twistStiffness_asymmetry x y m
  have hstructure := congrArg (m.i + m.j).dot (t.spin_structure x y h)
  simp only [ElementMatrix.asymmetry_sub, ElementMatrix.asymmetry_add, chordStiffness_asymmetry,
    hcurvature, triadStiffness_asymmetry, localForce_inner, relativeSpins, Slots.map_i_rot,
    Slots.map_j_rot]
  -- every product of a spin of `x` and one of `y` in one order
  rw [Vec3.cross_anticomm (t.localSpin y) (t.localize x).i.rot,
    Vec3.cross_anticomm (t.localSpin y) (t.localize x).j.rot]
  rw [Vec3.cross_anticomm (t.localSpin y)] at hstructure
  simp only [Vec3.dot_sub, Vec3.dot_add, Vec3.dot_neg, Vec3.add_dot, Vec3.sub_cross,
    Vec3.cross_sub] at hrates hstructure ⊢
  rw [Vec3.cross_anticomm (t.localize x).i.rot (t.localize y).i.rot,
    Vec3.cross_anticomm (t.localize x).j.rot (t.localize y).j.rot, Vec3.dot_neg, Vec3.dot_neg]
  linear_combination hrates + hstructure

end Triad

end Corotation
