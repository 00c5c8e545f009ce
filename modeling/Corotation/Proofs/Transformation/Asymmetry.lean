import Corotation.Proofs.Element.Asymmetry
import Corotation.Proofs.Transformation.Equilibrium
/-!
# The asymmetry of the stiffness

For a symmetric local stiffness the material part and the part with the tangents
of the local rotations are symmetric. The geometric part leaves the moments at the
ends of the chord, and the turning arms leave the moments of the forces on them;
together these are the nodal moments. So the stiffness less its transpose is the
block diagonal of the nodal moments, and nothing else (`pushStiffness_asymmetry`).
-/

namespace Corotation

namespace Transformation

variable [SeriesAngle] {ν : Type} {tol : Tolerances ℝ} {t : Transformation ν ℝ}
variable {d : Ends (Displacement ℝ)} (x y : ElementVector ℝ)

open ElementMatrix (asymmetry)

/-! ## The parts -/

/-- The turning arms leave the moments of the forces on them. -/
theorem armStiffness_asymmetry (arm : Ends (Vec3 ℝ)) (f : ElementVector ℝ) :
    asymmetry (armStiffness arm f) x y
      = -(x.i.rot.dot ((arm.i.cross f.i.lin).cross y.i.rot)
        + x.j.rot.dot ((arm.j.cross f.j.lin).cross y.j.rot)) := by
  have harm (f r u v : Vec3 ℝ) : u.dot (f.cross (r.cross v)) - v.dot (f.cross (r.cross u))
      = -u.dot ((r.cross f).cross v) := by
    simp [Vec3.dot_eq]
    ring
  rw [asymmetry, armStiffness_apply, armStiffness_apply]
  simp only [ElementVector.inner_eq, Vec3.dot_zero]
  linear_combination harm f.i.lin arm.i x.i.rot y.i.rot + harm f.j.lin arm.j x.j.rot y.j.rot

/-- The tangents of the local rotations weigh symmetrically. -/
theorem tangentTerm_asymmetry (T : ElementMatrix ℝ) (p ul : ElementVector ℝ) :
    asymmetry (tangentTerm T p ul) x y = 0 := by
  rw [tangentTerm_eq, ElementMatrix.asymmetry_congruence, ElementMatrix.asymmetry_diagonal]

/-- **The asymmetry of the stiffness** is that of the nodal moments, each with the
product of the spins of its node. -/
theorem IsCurrent.stiffness_asymmetry (h0 : 0 ≤ tol.parallel) (h : IsCurrent tol t d)
    (hi : tol.Covers t.deformation.i.rot) (hj : tol.Covers t.deformation.j.rot)
    {kl : ElementMatrix ℝ} (hkl : kl.transpose = kl) (p : ElementVector ℝ) :
    let f := ElementMatrix.apply (t.tangentMap tol).transpose p
    asymmetry (ElementMatrix.add (t.consistentStiffness tol (t.tangentMap tol) kl p)
        (tangentTerm (t.tangentMap tol) p t.deformation)) x y
      = -(x.i.rot.dot (f.i.rot.cross y.i.rot) + x.j.rot.dot (f.j.rot.cross y.j.rot)) := by
  intro f
  have hmaterial := (ElementMatrix.transpose_eq_self_iff kl).mp hkl
  have hgeometric := t.triad.geometricStiffness_asymmetry (ElementMatrix.apply (link t.arm) x)
    (ElementMatrix.apply (link t.arm) y) p t.deformation (h.isMeanFrame h0) hi hj
  have hf : f = ElementMatrix.apply (link t.arm).transpose
      (t.triad.endForce (Triad.spinMoments tol p t.deformation) p.axial) := nodalForce_eq t p
  rw [consistentStiffness]
  simp only [ElementMatrix.asymmetry_add, ElementMatrix.asymmetry_congruence, hmaterial, hgeometric,
    tangentTerm_asymmetry, armStiffness_asymmetry]
  change _ + -(x.i.rot.dot ((t.arm.i.cross f.i.lin).cross y.i.rot)
    + x.j.rot.dot ((t.arm.j.cross f.j.lin).cross y.j.rot)) + 0 = _
  rw [hf, link_transpose_apply, link_apply, link_apply]
  simp only [Vec3.add_cross, Vec3.dot_add]
  ring

end Transformation

namespace Session

open ElementMatrix (rotational)

variable [SeriesAngle] {ν : Type} {tol : Tolerances ℝ}

/-- **The stiffness is symmetric but for the nodal moments.** In any current state
of any session whose local rotations the tolerances cover, for any symmetric local
stiffness and any local forces: the stiffness less its transpose is, with the sign
changed, the block diagonal of the vector products with the two nodal moments. So
it is symmetric exactly if both nodal moments vanish, and its rows of forces are
always those of its transpose. -/
theorem pushStiffness_asymmetry (h0 : 0 ≤ tol.parallel) (config : Configuration ℝ)
    (calls : List (Call ν ℝ)) {kl : ElementMatrix ℝ} (pl : ElementVector ℝ)
    (hkl : kl.transpose = kl)
    (hcurrent : (run tol config calls).transformation.stage = .current)
    (hi : tol.Covers (run tol config calls).transformation.deformation.i.rot)
    (hj : tol.Covers (run tol config calls).transformation.deformation.j.rot) :
    let t := (run tol config calls).transformation
    ∃ f K notices, t.pushForce pl = .ok f ∧ t.pushStiffness tol kl pl = .ok (K, notices)
      ∧ K - K.transpose = -rotational ⟨Mat3.skew f.i.rot, Mat3.skew f.j.rot⟩
      ∧ (K.transpose = K ↔ f.i.rot = 0 ∧ f.j.rot = 0)
      ∧ K.transpose.i.lin = K.i.lin ∧ K.transpose.j.lin = K.j.lin := by
  intro t
  obtain ⟨h, -, -⟩ := (run_consistent h0 config calls).of_current hcurrent
  set f := ElementMatrix.apply (t.tangentMap tol).transpose pl
  have hf : t.pushForce pl = .ok f := by
    rw [Transformation.pushForce, h.tangent]
    rfl
  set K := ElementMatrix.add (t.consistentStiffness tol (t.tangentMap tol) kl pl)
    (Transformation.tangentTerm (t.tangentMap tol) pl t.deformation)
  have hK : K - K.transpose = -rotational ⟨Mat3.skew f.i.rot, Mat3.skew f.j.rot⟩ :=
    ElementMatrix.sub_transpose_eq (m := ⟨f.i.rot, f.j.rot⟩) fun x y =>
      h.stiffness_asymmetry x y h0 hi hj hkl pl
  refine ⟨f, K, _, hf, by rw [Transformation.pushStiffness, h.tangent]; rfl, hK, ?_, ?_, ?_⟩
  · rw [eq_comm, ← sub_eq_zero, hK, neg_eq_zero, ElementMatrix.rotational_eq_zero_iff,
      Mat3.skew_eq_zero_iff, Mat3.skew_eq_zero_iff]
  · have hrow := congrArg (fun k : ElementMatrix ℝ => k.i.lin) hK
    exact (sub_eq_zero.mp (hrow.trans neg_zero)).symm
  · have hrow := congrArg (fun k : ElementMatrix ℝ => k.j.lin) hK
    exact (sub_eq_zero.mp (hrow.trans neg_zero)).symm

omit [SeriesAngle] in
/-- The twisted element with unit stiffnesses under an axial force and a
moment. -/
theorem pushStiffness_asymmetry_twisted :
    letI : SeriesAngle := .exact
    let t := (twistedSession .standard).transformation
    ∃ f K notices, t.pushForce ⟨⟨0, ⟨0, 1, 0⟩⟩, ⟨⟨1, 0, 0⟩, 0⟩⟩ = .ok f
      ∧ t.pushStiffness .standard .identity ⟨⟨0, ⟨0, 1, 0⟩⟩, ⟨⟨1, 0, 0⟩, 0⟩⟩ = .ok (K, notices)
      ∧ K - K.transpose = -rotational ⟨Mat3.skew f.i.rot, Mat3.skew f.j.rot⟩
      ∧ (K.transpose = K ↔ f.i.rot = 0 ∧ f.j.rot = 0) := by
  let _ : SeriesAngle := .exact
  intro t
  obtain ⟨hstage, -, -, hi, hj⟩ := twistedSession_standard
  have hsymmetric : (.identity : ElementMatrix ℝ).transpose = .identity := rfl
  obtain ⟨f, K, notices, hf, hK, hdiff, hsymm, -⟩ := pushStiffness_asymmetry
    Tolerances.standard_admissible_exact.parallel_nonneg straight _
    ⟨⟨0, ⟨0, 1, 0⟩⟩, ⟨⟨1, 0, 0⟩, 0⟩⟩ hsymmetric hstage hi.covers hj.covers
  exact ⟨f, K, notices, hf, hK, hdiff, hsymm⟩

end Session

end Corotation
