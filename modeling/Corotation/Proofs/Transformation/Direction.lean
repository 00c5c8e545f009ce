import Corotation.Proofs.Transformation.Offsets
import Corotation.Proofs.Transformation.Session
/-!
# Motions along a direction

From a current state the nodes are moved on along a direction `x`, by `s • x`
at the parameter `s`, and the state follows in one update. Each node then turns
with its own spin, the offset arms turn with the nodes, and the ends of the
chord move as the link maps `x`. So the triad moves with its ends
(`moves_deformedTriad`), the local deformations by the tangent
(`hasRate_deformationAlong`), and the nodal forces of moving local forces by
the transposed tangent and the stiffness without its material part
(`hasRate_nodalForce`).
-/

open Topology

namespace Corotation

/-- A rotation after a growing turn. -/
theorem Versor.hasRate_turn_mul [SeriesAngle] (h0 : 0 ≤ SeriesAngle.angle) (u : Vec3 ℝ)
    (m : Mat3 ℝ) : Mat3.HasRate (fun s : ℝ => (turn (s • u)).toMatrix * m) (Mat3.skew u * m) 0 := by
  refine ((hasRate_turn_toMatrix h0 u).mul (.const m 0)).congr_rate ?_
  rw [mul_zero, add_zero]

namespace Transformation

variable [SeriesAngle] {ν : Type} {tol : Tolerances ℝ}

/-- The state after the nodes moved on by `s • x`, before its evaluation. -/
noncomputable def along (t : Transformation ν ℝ) (d x : Ends (Displacement ℝ)) (s : ℝ) :
    Transformation ν ℝ := t.moved ((d + s • x).map Screw.rot)

/-- The triad on the way. -/
noncomputable def triadAlong (t : Transformation ν ℝ) (d x : Ends (Displacement ℝ)) (s : ℝ) :
    Triad ℝ := (t.along d x s).deformedTriad (d + s • x)

/-- The rotations of the nodes relative to the triad on the way. -/
noncomputable def relativeAlong (t : Transformation ν ℝ) (d x : Ends (Displacement ℝ)) (s : ℝ) :
    Ends (Mat3 ℝ) := (t.along d x s).relativeRotation (t.triadAlong d x s)

/-- The local deformations on the way. -/
noncomputable def deformationAlong (t : Transformation ν ℝ) (d x : Ends (Displacement ℝ))
    (s : ℝ) : ElementVector ℝ := (t.along d x s).localDeformation (d + s • x)

/-- The rate at which the ends of the chord start on the way. -/
noncomputable def endRate (t : Transformation ν ℝ) (d x : Ends (Displacement ℝ)) :
    ElementVector ℝ := ElementMatrix.apply (link (t.along d x 0).deformedArm) x

variable {t : Transformation ν ℝ} {d x : Ends (Displacement ℝ)}

/-! ## The nodes along the way -/

theorem along_nodalRotation (hseen : t.seen = d.map Screw.rot) (s : ℝ) :
    (t.along d x s).nodalRotation =
      ⟨(Versor.turn (s • x.i.rot)).toMatrix * t.nodalRotation.i,
       (Versor.turn (s • x.j.rot)).toMatrix * t.nodalRotation.j⟩ := by
  rw [along, moved_nodalRotation, hseen]
  simp [Ends.map]

/-- At the start of the way nothing has turned. -/
theorem along_zero (hseen : t.seen = d.map Screw.rot) :
    (t.along d x 0).nodalRotation = t.nodalRotation := by
  rw [along_nodalRotation hseen, zero_smul, zero_smul, Versor.turn_zero, Versor.toMatrix_identity,
    one_mul, one_mul]

/-- The nodes turn with their spins. -/
theorem hasRate_nodalRotation (h0 : 0 ≤ SeriesAngle.angle) (hseen : t.seen = d.map Screw.rot) :
    Mat3.HasRate (fun s => (t.along d x s).nodalRotation.i)
        (Mat3.skew x.i.rot * (t.along d x 0).nodalRotation.i) 0
      ∧ Mat3.HasRate (fun s => (t.along d x s).nodalRotation.j)
        (Mat3.skew x.j.rot * (t.along d x 0).nodalRotation.j) 0 := by
  rw [along_zero hseen]
  simp only [along_nodalRotation hseen]
  exact ⟨Versor.hasRate_turn_mul h0 _ _, Versor.hasRate_turn_mul h0 _ _⟩

/-- A fixed vector that turns with a node. -/
theorem hasRate_turned {R : ℝ → Mat3 ℝ} {u : Vec3 ℝ} (h : Mat3.HasRate R (Mat3.skew u * R 0) 0)
    (v : Vec3 ℝ) : Vec3.HasRate (fun s => (R s).apply v) (u.cross ((R 0).apply v)) 0 := by
  refine (h.apply (.const v 0)).congr_rate ?_
  rw [Mat3.mul_apply, Mat3.skew_apply, Mat3.apply_zero, add_zero]

/-- The arms turn with the nodes. -/
theorem hasRate_deformedArm (h0 : 0 ≤ SeriesAngle.angle) (hseen : t.seen = d.map Screw.rot) :
    Vec3.HasRate (fun s => (t.along d x s).deformedArm.i)
        (x.i.rot.cross (t.along d x 0).deformedArm.i) 0
      ∧ Vec3.HasRate (fun s => (t.along d x s).deformedArm.j)
        (x.j.rot.cross (t.along d x 0).deformedArm.j) 0 := by
  obtain ⟨hi, hj⟩ := hasRate_nodalRotation (x := x) h0 hseen
  have harm (s : ℝ) : (t.along d x s).deformedArm =
      ⟨(t.along d x s).nodalRotation.i.apply
        (t.reference.axes.transpose.apply t.reference.offset.i),
       (t.along d x s).nodalRotation.j.apply
        (t.reference.axes.transpose.apply t.reference.offset.j)⟩ :=
    Ends.ext (Mat3.mul_apply _ _ _) (Mat3.mul_apply _ _ _)
  simp only [harm]
  exact ⟨hasRate_turned hi _, hasRate_turned hj _⟩

/-- The chord moves with its ends. -/
theorem hasRate_deformedChord (h0 : 0 ≤ SeriesAngle.angle) (hseen : t.seen = d.map Screw.rot) :
    Vec3.HasRate (fun s => (t.along d x s).deformedChord (d + s • x))
      ((t.endRate d x).j.lin - (t.endRate d x).i.lin) 0 := by
  obtain ⟨hi, hj⟩ := hasRate_deformedArm (x := x) h0 hseen
  have hend {arm : ℝ → Vec3 ℝ} {arm' : Vec3 ℝ} (harm : Vec3.HasRate arm arm' 0)
      (d x : Displacement ℝ) (o : Vec3 ℝ) :
      Vec3.HasRate (fun s => (d + s • x).lin + arm s - o) (x.lin + arm' - 0) 0 := by
    have hline : Vec3.HasRate (fun s : ℝ => (d + s • x).lin) x.lin 0 := by
      refine ((Vec3.HasRate.const d.lin 0).add
        (Vec3.HasRate.smul_const (hasDerivAt_id (0 : ℝ)) x.lin)).congr_rate ?_
      rw [zero_add, one_smul]
    exact (hline.add harm).sub (.const o 0)
  refine (((Vec3.HasRate.const t.reference.chord 0).add
    (hend hj d.j x.j t.reference.offset.j)).sub
      (hend hi d.i x.i t.reference.offset.i)).congr_rate ?_
  rw [endRate, link_apply, zero_add, sub_zero, sub_zero]

/-! ## The triad along the way -/

theorem hasRate_nodalAxes (h0 : 0 ≤ SeriesAngle.angle) (hseen : t.seen = d.map Screw.rot) :
    Vec3.HasRate (fun s => (t.along d x s).nodalAxes.i)
        (x.i.rot.cross (t.along d x 0).nodalAxes.i) 0
      ∧ Vec3.HasRate (fun s => (t.along d x s).nodalAxes.j)
        (x.j.rot.cross (t.along d x 0).nodalAxes.j) 0 := by
  obtain ⟨hi, hj⟩ := hasRate_nodalRotation (x := x) h0 hseen
  exact ⟨hi.c2.congr_rate (by rw [Mat3.mul_c2, Mat3.skew_apply]; rfl),
    hj.c2.congr_rate (by rw [Mat3.mul_c2, Mat3.skew_apply]; rfl)⟩

/-- **The triad moves with the linked ends.** -/
theorem moves_deformedTriad (hp : 0 ≤ tol.parallel) (h0 : 0 ≤ SeriesAngle.angle)
    (hseen : t.seen = d.map Screw.rot)
    (hdet : Determines tol (t.along d x 0) (d + (0 : ℝ) • x)) :
    Triad.Moves (t.triadAlong d x) (t.endRate d x) 0 := by
  obtain ⟨hi, hj⟩ := hasRate_nodalAxes (x := x) h0 hseen
  exact Triad.moves_between hp hdet (hasRate_deformedChord h0 hseen)
    (by rw [endRate, link_apply]; exact hi) (by rw [endRate, link_apply]; exact hj)

/-- **Near the start of the way a triad is determined.** -/
theorem eventually_determines (h0 : 0 ≤ SeriesAngle.angle)
    (hseen : t.seen = d.map Screw.rot)
    (hdet : Determines tol (t.along d x 0) (d + (0 : ℝ) • x)) :
    ∀ᶠ s in 𝓝 (0 : ℝ), Determines tol (t.along d x s) (d + s • x) := by
  obtain ⟨hi, hj⟩ := hasRate_nodalAxes (x := x) h0 hseen
  exact Triad.eventually_determined hdet (hasRate_deformedChord h0 hseen) hi hj

/-! ## The local deformations along the way -/

section Deformation

variable (hp : 0 ≤ tol.parallel) (h0 : 0 ≤ SeriesAngle.angle)
variable (hsmall : SeriesAngle.angle < tol.smallAngle) (hversors : HasVersors t)
variable (hseen : t.seen = d.map Screw.rot)
variable (hdet : Determines tol (t.along d x 0) (d + (0 : ℝ) • x))

include hp h0 hversors hseen hdet

/-- The nodes turn relative to the triad with their relative spins, and stay
rotations. -/
theorem hasRate_relativeAlong :
    (∀ᶠ s in 𝓝 (0 : ℝ),
        (t.relativeAlong d x s).i.IsRotation ∧ (t.relativeAlong d x s).j.IsRotation)
      ∧ Mat3.HasRate (fun s => (t.relativeAlong d x s).i)
        (Mat3.skew ((t.triadAlong d x 0).relativeSpins (t.endRate d x)).i
          * (t.relativeAlong d x 0).i) 0
      ∧ Mat3.HasRate (fun s => (t.relativeAlong d x s).j)
        (Mat3.skew ((t.triadAlong d x 0).relativeSpins (t.endRate d x)).j
          * (t.relativeAlong d x 0).j) 0 := by
  have hmoves := moves_deformedTriad (x := x) hp h0 hseen hdet
  have hframe : (t.triadAlong d x 0).axes.IsRotation := (Triad.isFrame_between hp hdet).isRotation
  obtain ⟨hi, hj⟩ := hasRate_nodalRotation (x := x) h0 hseen
  refine ⟨?_, (Triad.hasRate_localRotation hmoves.axes hframe hi).congr_rate ?_,
    (Triad.hasRate_localRotation hmoves.axes hframe hj).congr_rate ?_⟩
  · filter_upwards [eventually_determines h0 hseen hdet] with s hs
    have haxes := (Triad.isFrame_between hp hs).isRotation.transpose
    obtain ⟨hri, hrj⟩ := (hversors.moved ((d + s • x).map Screw.rot)).isRotation
    exact ⟨haxes.mul hri, haxes.mul hrj⟩
  · rw [Triad.relativeSpins, Triad.localize, endRate, link_apply]
    rfl
  · rw [Triad.relativeSpins, Triad.localize, endRate, link_apply]
    rfl

include hsmall

/-- **The local deformations move by the tangent**, wherever the tolerances
cover the local rotations. -/
theorem hasRate_deformationAlong (hcover : tol.Covers (t.deformationAlong d x 0).i.rot
      ∧ tol.Covers (t.deformationAlong d x 0).j.rot) :
    ElementVector.HasRate (t.deformationAlong d x)
      (ElementMatrix.apply
        ((t.triadAlong d x 0).deformationTangent tol (t.deformationAlong d x 0))
        (t.endRate d x)) 0 := by
  have hmoves := moves_deformedTriad (x := x) hp h0 hseen hdet
  obtain ⟨hrot, hi, hj⟩ := hasRate_relativeAlong (x := x) hp h0 hversors hseen hdet
  rw [Triad.deformationTangent_apply]
  exact {
    i_lin := .const 0 0
    i_rot := Versor.hasRate_logarithm h0 hsmall (hrot.mono fun _ h => h.1) hi hcover.1
    j_lin := ⟨hmoves.length.sub_const t.reference.length, hasDerivAt_const 0 (0 : ℝ),
      hasDerivAt_const 0 (0 : ℝ)⟩
    j_rot := Versor.hasRate_logarithm h0 hsmall (hrot.mono fun _ h => h.2) hj hcover.2 }

/-- **The nodal forces of moving local forces** move with the forces by the
transposed tangent, and with the nodes by the stiffness of the triad and of
the offset arms. -/
theorem hasRate_nodalForce (hcover : tol.CoversAround (t.deformationAlong d x 0).i.rot
      ∧ tol.CoversAround (t.deformationAlong d x 0).j.rot)
    {p : ℝ → ElementVector ℝ} {p' : ElementVector ℝ} (hforce : ElementVector.HasRate p p' 0) :
    let arm := (t.along d x 0).deformedArm
    let T := ElementMatrix.mul
      ((t.triadAlong d x 0).deformationTangent tol (t.deformationAlong d x 0)) (link arm)
    ElementVector.HasRate
      (fun s => ElementMatrix.apply (ElementMatrix.mul
        ((t.triadAlong d x s).deformationTangent tol (t.deformationAlong d x s))
        (link (t.along d x s).deformedArm)).transpose (p s))
      (ElementMatrix.apply T.transpose p'
        + ElementMatrix.apply (ElementMatrix.congruence (link arm)
          ((t.triadAlong d x 0).geometricStiffness tol (p 0) (t.deformationAlong d x 0))) x
        + ElementMatrix.apply (armStiffness arm (ElementMatrix.apply T.transpose (p 0))) x) 0 := by
  intro arm T
  have hmoves := moves_deformedTriad (x := x) hp h0 hseen hdet
  have hlocal := hasRate_deformationAlong (x := x) hp h0 hsmall hversors hseen hdet
    ⟨hcover.1.covers, hcover.2.covers⟩
  rw [Triad.deformationTangent_apply] at hlocal
  have hend := Triad.hasRate_transposedTangent (h0.trans_lt hsmall) hmoves
    (Triad.isFrame_between hp hdet) hforce hlocal.i_rot hlocal.j_rot hcover
  obtain ⟨harm_i, harm_j⟩ := hasRate_deformedArm (x := x) h0 hseen
  simp only [ElementMatrix.transpose_mul_apply]
  refine (hasRate_link_transpose harm_i harm_j hend).congr_rate ?_
  -- the arms see the linear parts of the end forces, which the link leaves alone
  have harms : ElementMatrix.apply (armStiffness arm (ElementMatrix.apply T.transpose (p 0))) x
      = ElementMatrix.apply (armStiffness arm (ElementMatrix.apply
        ((t.triadAlong d x 0).deformationTangent tol (t.deformationAlong d x 0)).transpose (p 0)))
        x := by
    rw [armStiffness_apply, armStiffness_apply, ElementMatrix.transpose_mul_apply,
      link_transpose_apply]
  rw [harms, ElementMatrix.transpose_mul_apply, ElementMatrix.congruence_apply,
    ElementMatrix.apply_add]
  rfl

end Deformation

end Transformation

end Corotation
