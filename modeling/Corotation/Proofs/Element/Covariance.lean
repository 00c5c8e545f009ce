import Corotation.Proofs.Element.Linearization
/-!
# The element under a rigid rotation

A rotation of the chord and of both nodal y-axes rotates the triad and nothing
else of it (`between_turn`): the length and the components of the nodal axes
stay. So the spin in local components stays as well, and every map of the
linearization sees a rotated displacement rate as it saw the rate before. The
deformation tangent of the turned triad takes the rate back first
(`deformationTangent_turn`), and the geometric stiffness also turns its result
(`geometricStiffness_turn`), part by part.
-/

namespace Corotation

namespace Triad

variable [SeriesAngle]

/-- The triad with its axes turned by a rotation. -/
noncomputable def turn (g : Mat3 ℝ) (t : Triad ℝ) : Triad ℝ := { t with axes := g * t.axes }

section Between

variable {tol : Tolerances ℝ} {g : Mat3 ℝ} {nodal : Ends (Vec3 ℝ)} {dx : Vec3 ℝ}

theorem direction_turn (hg : g.IsRotation) (v : Vec3 ℝ) :
    direction (g.apply v) = g.apply (direction v) := by
  rw [direction, hg.norm_apply, direction, Mat3.apply_smul]

theorem meanAxis_turn (g : Mat3 ℝ) (nodal : Ends (Vec3 ℝ)) :
    meanAxis (nodal.map g.apply) = g.apply (meanAxis nodal) := by
  rw [meanAxis_eq, meanAxis_eq, Mat3.apply_smul, Mat3.apply_add]
  rfl

theorem normal_turn (hg : g.IsRotation) :
    normal (nodal.map g.apply) (g.apply dx) = g.apply (normal nodal dx) := by
  rw [normal, direction_turn hg, meanAxis_turn, ← hg.apply_cross, normal]

/-- What determines a triad determines one after a rotation. -/
theorem Determined.turn (hg : g.IsRotation) (h : Determined tol nodal dx) :
    Determined tol (nodal.map g.apply) (g.apply dx) :=
  ⟨by rw [hg.norm_apply]; exact h.length_pos,
    by rw [normal_turn hg, hg.norm_apply]; exact h.across⟩

/-- **A rotated chord with rotated nodal axes has the rotated triad.** -/
theorem between_turn (hg : g.IsRotation) :
    between (nodal.map g.apply) (g.apply dx) = (between nodal dx).turn g := by
  have haxes : (between (nodal.map g.apply) (g.apply dx)).axes = g * (between nodal dx).axes := by
    have hcolumns (a b c : Vec3 ℝ) : Mat3.ofColumns (g.apply a) (g.apply b) (g.apply c)
        = g * .ofColumns a b c := by
      ext <;> rfl
    change Mat3.ofColumns (direction (g.apply dx))
      ((direction (normal (nodal.map g.apply) (g.apply dx))).cross (direction (g.apply dx)))
      (direction (normal (nodal.map g.apply) (g.apply dx))) = _
    rw [normal_turn hg, direction_turn hg, direction_turn hg, ← hg.apply_cross, hcolumns]
    rfl
  have hlocal (v : Vec3 ℝ) : (g * (between nodal dx).axes).transpose.apply (g.apply v)
      = (between nodal dx).axes.transpose.apply v := by
    rw [Mat3.transpose_mul, Mat3.mul_apply, hg.transpose_apply_apply]
  refine Triad.ext (hg.norm_apply dx) haxes ?_ (Ends.ext ?_ ?_)
  · change (between (nodal.map g.apply) (g.apply dx)).axes.transpose.apply
      (meanAxis (nodal.map g.apply)) = _
    rw [haxes, meanAxis_turn, hlocal]
    rfl
  · change (between (nodal.map g.apply) (g.apply dx)).axes.transpose.apply (g.apply nodal.i) = _
    rw [haxes, hlocal]
    rfl
  · change (between (nodal.map g.apply) (g.apply dx)).axes.transpose.apply (g.apply nodal.j) = _
    rw [haxes, hlocal]
    rfl

end Between

/-! ## The linearization of a turned triad -/

variable (tol : Tolerances ℝ) (t : Triad ℝ) (g : Mat3 ℝ) (x p ul : ElementVector ℝ)

/-- A rate seen from the turned triad is the rate turned back. -/
theorem localize_turn : (t.turn g).localize x = t.localize (Slots.map g.transpose.apply x) := by
  refine Slots.ext_slots ?_ ?_ ?_ ?_ <;>
  · simp only [localize, Slots.map_i_lin, Slots.map_i_rot, Slots.map_j_lin, Slots.map_j_rot]
    change (g * t.axes).transpose.apply _ = _
    rw [Mat3.transpose_mul, Mat3.mul_apply]

theorem localSpin_turn :
    (t.turn g).localSpin x = t.localSpin (Slots.map g.transpose.apply x) := by
  rw [localSpin, localize_turn]
  rfl

theorem relativeSpins_turn :
    (t.turn g).relativeSpins x = t.relativeSpins (Slots.map g.transpose.apply x) := by
  rw [relativeSpins, localize_turn, localSpin_turn]
  rfl

theorem e1_turn : (t.turn g).e1 = g.apply t.e1 := by
  ext <;> rfl

theorem chordRow_turn : (t.turn g).chordRow = Slots.map g.apply t.chordRow := by
  refine Slots.ext_slots ?_ ?_ ?_ ?_ <;> simp [chordRow, e1_turn]

/-- The rate of the length is that of the rate turned back. -/
theorem chordRow_turn_inner : (t.turn g).chordRow.inner x
    = t.chordRow.inner (Slots.map g.transpose.apply x) := by
  rw [chordRow_turn]
  simp only [ElementVector.inner, Slots.map_i_lin, Slots.map_i_rot, Slots.map_j_lin,
    Slots.map_j_rot, Mat3.apply_dot]

/-- **The deformation tangent** of the turned triad takes a rate back first. -/
theorem deformationTangent_turn :
    ElementMatrix.apply ((t.turn g).deformationTangent tol ul) x
      = ElementMatrix.apply (t.deformationTangent tol ul) (Slots.map g.transpose.apply x) := by
  rw [deformationTangent_apply, deformationTangent_apply, relativeSpins_turn, chordRow_turn_inner]

/-- The end forces turn with the triad. -/
theorem endForce_turn (m : Ends (Vec3 ℝ)) (n : ℝ) :
    (t.turn g).endForce m n = Slots.map g.apply (t.endForce m n) := by
  have haxes (v : Vec3 ℝ) : (t.turn g).axes.apply v = g.apply (t.axes.apply v) :=
    Mat3.mul_apply _ _ _
  rw [endForce, chordRow_turn]
  refine Slots.ext_slots ?_ ?_ ?_ ?_ <;> simp [endForce, haxes] <;> rfl

/-! ## The geometric stiffness of a turned triad -/

theorem axisRates_turn :
    (t.turn g).axisRates x = t.axisRates (Slots.map g.transpose.apply x) := by
  rw [axisRates, relativeSpins_turn]
  rfl

theorem ratioRate_turn (rate ratio : ℝ) : (t.turn g).ratioRate x rate ratio
    = t.ratioRate (Slots.map g.transpose.apply x) rate ratio := by
  rw [ratioRate, axisRates_turn]
  rfl

/-- The ratios inside the spin move as they did. -/
theorem twistGradient_turn : ElementMatrix.apply (t.turn g).twistGradient x
    = ElementMatrix.apply t.twistGradient (Slots.map g.transpose.apply x) := by
  rw [twistGradient_apply, twistGradient_apply]
  simp only [ratioRate_turn, axisRates_turn]
  rfl

/-- A vector carried by the axes of the turned triad. -/
theorem map_axes_turn (y : ElementVector ℝ) :
    Slots.map (t.turn g).axes.apply y = Slots.map g.apply (Slots.map t.axes.apply y) := by
  refine Slots.ext_slots ?_ ?_ ?_ ?_ <;> exact Mat3.mul_apply _ _ _

/-- The chord of the turned triad turns under the axial force. -/
theorem chordStiffness_turn (hg : g.IsRotation) :
    ElementMatrix.apply ((t.turn g).chordStiffness p) x = Slots.map g.apply
      (ElementMatrix.apply (t.chordStiffness p) (Slots.map g.transpose.apply x)) := by
  have hturn : (t.turn g).length⁻¹ • (x.j.lin - x.i.lin
        - (t.turn g).e1.dot (x.j.lin - x.i.lin) • (t.turn g).e1)
      = g.apply (t.length⁻¹ • (g.transpose.apply x.j.lin - g.transpose.apply x.i.lin
        - t.e1.dot (g.transpose.apply x.j.lin - g.transpose.apply x.i.lin) • t.e1)) := by
    have hback : g.apply (g.transpose.apply x.j.lin - g.transpose.apply x.i.lin)
        = x.j.lin - x.i.lin := by
      rw [Mat3.apply_sub, hg.apply_transpose_apply, hg.apply_transpose_apply]
    rw [e1_turn, Mat3.apply_dot, Mat3.apply_sub g.transpose, Mat3.apply_smul,
      Mat3.apply_sub g (_ - _), Mat3.apply_smul, hback]
    rfl
  rw [chordStiffness_apply, chordStiffness_apply, hturn]
  refine Slots.ext_slots ?_ ?_ ?_ ?_ <;> simp

/-- **The geometric stiffness** of the turned triad takes a rate back, and
turns its result. -/
theorem geometricStiffness_turn (hg : g.IsRotation) :
    ElementMatrix.apply ((t.turn g).geometricStiffness tol p ul) x = Slots.map g.apply
      (ElementMatrix.apply (t.geometricStiffness tol p ul) (Slots.map g.transpose.apply x)) := by
  have hcurvature : ElementMatrix.apply ((t.turn g).curvatureStiffness tol p ul) x
      = Slots.map g.apply (ElementMatrix.apply (t.curvatureStiffness tol p ul)
        (Slots.map g.transpose.apply x)) := by
    rw [curvatureStiffness_apply, curvatureStiffness_apply, endForce_turn, relativeSpins_turn]
  have htriad (m : Ends (Vec3 ℝ)) : ElementMatrix.apply ((t.turn g).triadStiffness m) x
      = Slots.map g.apply (ElementMatrix.apply (t.triadStiffness m)
        (Slots.map g.transpose.apply x)) := by
    rw [triadStiffness_apply, triadStiffness_apply, localSpin_turn]
    refine Slots.ext_slots ?_ ?_ ?_ ?_ <;> exact Mat3.mul_apply _ _ _
  have hlength (m : Ends (Vec3 ℝ)) : ElementMatrix.apply ((t.turn g).lengthStiffness m) x
      = Slots.map g.apply (ElementMatrix.apply (t.lengthStiffness m)
        (Slots.map g.transpose.apply x)) := by
    rw [lengthStiffness_apply, lengthStiffness_apply, chordRow_turn_inner, map_axes_turn]
    refine Slots.ext_slots ?_ ?_ ?_ ?_ <;> exact (Mat3.apply_smul _ _ _).symm
  have htwist (m : Ends (Vec3 ℝ)) : ElementMatrix.apply ((t.turn g).twistStiffness m) x
      = Slots.map g.apply (ElementMatrix.apply (t.twistStiffness m)
        (Slots.map g.transpose.apply x)) := by
    rw [twistStiffness_apply, twistStiffness_apply, twistGradient_turn, map_axes_turn]
    refine Slots.ext_slots ?_ ?_ ?_ ?_ <;> exact (Mat3.apply_smul _ _ _).symm
  simp only [geometricStiffness, ElementMatrix.sub_apply, ElementMatrix.add_apply, hcurvature,
    chordStiffness_turn t g x p hg, htriad, hlength, htwist]
  refine Slots.ext_slots ?_ ?_ ?_ ?_ <;> simp

end Triad

end Corotation
