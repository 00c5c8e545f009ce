import Corotation.Proofs.Element.Equilibrium
import Corotation.Proofs.Transformation.Offsets
import Corotation.Proofs.Transformation.RigidMotion
/-!
# Equilibrium at the nodes

A rigid rate of the nodes about where they are is one of the ends of the chord,
since the arms turn with the nodes (`IsCurrent.isRigidRate`). So the tangent
annihilates it, and the nodal forces, which the transpose of the tangent gives,
balance between the displaced nodes (`pushForce_balanced`). Of the stiffness only
the geometric part and the arms act on such a rate, and by the identity of Jacobi
they turn the nodal forces, their moments on the arms included, with the body
(`pushStiffness_rigid`). Neither depends on the size of the local rotations.
-/

namespace Corotation

namespace Transformation

variable [SeriesAngle] {ν : Type} {tol : Tolerances ℝ} {t : Transformation ν ℝ}
variable {position : Ends (Vec3 ℝ)} {d : Ends (Displacement ℝ)}

open ElementVector (rigid IsBalanced resultant)

/-- Where the nodes are after their displacements. -/
noncomputable def displaced (position : Ends (Vec3 ℝ)) (d : Ends (Displacement ℝ)) :
    Ends (Vec3 ℝ) := ⟨position.i + d.i.lin, position.j + d.j.lin⟩

/-! ## The arms -/

/-- **End forces that turn with the body** are nodal forces that do, once the
turning arms are counted. -/
theorem link_transpose_cross (arm : Ends (Vec3 ℝ)) (n : ElementVector ℝ) (w : Vec3 ℝ)
    {x : ElementVector ℝ} (hi : x.i.rot = w) (hj : x.j.rot = w) :
    ElementMatrix.apply (link arm).transpose (Slots.map w.cross n)
        + ElementMatrix.apply (armStiffness arm (ElementMatrix.apply (link arm).transpose n)) x
      = Slots.map w.cross (ElementMatrix.apply (link arm).transpose n) := by
  have hturn (r f m : Vec3 ℝ) : w.cross m + r.cross (w.cross f) + f.cross (r.cross w)
      = w.cross (m + r.cross f) := by
    rw [Vec3.cross_add, add_assoc, Vec3.cross_jacobi]
  rw [armStiffness_apply, link_transpose_apply, link_transpose_apply, hi, hj]
  exact Slots.ext_slots (add_zero _) (hturn _ _ _) (add_zero _) (hturn _ _ _)

theorem link_transpose_resultant (arm : Ends (Vec3 ℝ)) (n : ElementVector ℝ) :
    (ElementMatrix.apply (link arm).transpose n).resultant = n.resultant := by
  rw [link_transpose_apply]
  rfl

/-- The nodal forces are the end forces carried to the nodes. -/
theorem nodalForce_eq (t : Transformation ν ℝ) (p : ElementVector ℝ) :
    ElementMatrix.apply (t.tangentMap tol).transpose p
      = ElementMatrix.apply (link t.arm).transpose
        (t.triad.endForce (Triad.spinMoments tol p t.deformation) p.axial) := by
  rw [tangentMap, ElementMatrix.transpose_mul_apply, Triad.deformationTangent_transpose_apply]

/-! ## Rigid rates of the nodes -/

section Current

variable (h0 : 0 ≤ tol.parallel) (hsound : t.IsSound tol position) (h : IsCurrent tol t d)

include h0 h in
theorem IsCurrent.isMeanFrame : t.triad.IsMeanFrame :=
  h.triad ▸ Triad.isMeanFrame_between h0 h.determines

include hsound h in
/-- The chord of the triad ends where the arms of the displaced nodes do. -/
theorem IsCurrent.length_smul_e1 : t.triad.length • t.triad.e1
    = (displaced position d).j + t.arm.j - ((displaced position d).i + t.arm.i) := by
  have hchord : t.triad.length • t.triad.e1 = t.deformedChord d := by
    rw [h.triad]
    exact Vec3.norm_smul_divide h.determines.length_pos
  rw [hchord, deformedChord_eq hsound.reference d, h.arm]
  rfl

include hsound h in
/-- **A rigid rate of the nodes is one of the chord.** -/
theorem IsCurrent.isRigidRate (c w : Vec3 ℝ) : t.triad.IsRigidRate w
    (ElementMatrix.apply (link t.arm) (rigid (displaced position d) c w)) := by
  rw [link_apply]
  refine ⟨rfl, rfl, ?_⟩
  rw [h.length_smul_e1 hsound]
  simp only [rigid, Vec3.cross_sub, Vec3.cross_add]
  abel

include h0 hsound h

/-- **The tangent annihilates rigid rates.** -/
theorem IsCurrent.tangentMap_rigid (c w : Vec3 ℝ) :
    ElementMatrix.apply (t.tangentMap tol) (rigid (displaced position d) c w) = 0 := by
  rw [tangentMap, ElementMatrix.mul_apply]
  exact (h.isRigidRate hsound c w).deformationTangent_apply (h.isMeanFrame h0)

/-- **Nodal forces are balanced** between the displaced nodes. -/
theorem IsCurrent.isBalanced (p : ElementVector ℝ) : IsBalanced (displaced position d)
    (ElementMatrix.apply (t.tangentMap tol).transpose p) :=
  (ElementVector.transpose_isBalanced_iff (t.tangentMap tol)).mpr (h.tangentMap_rigid h0 hsound) p

/-- **The nodal forces turn with the body** in a rigid rate. -/
theorem IsCurrent.stiffness_rigid (kl : ElementMatrix ℝ) (p : ElementVector ℝ) (c w : Vec3 ℝ) :
    ElementMatrix.apply (ElementMatrix.add (t.consistentStiffness tol (t.tangentMap tol) kl p)
        (tangentTerm (t.tangentMap tol) p t.deformation)) (rigid (displaced position d) c w)
      = Slots.map w.cross (ElementMatrix.apply (t.tangentMap tol).transpose p) := by
  have hT := h.tangentMap_rigid h0 hsound c w
  have hgeometric := (h.isRigidRate hsound c w).geometricStiffness_apply (h.isMeanFrame h0) tol p
    t.deformation
  have hmaterial : ElementMatrix.apply (ElementMatrix.congruence (t.tangentMap tol) kl)
      (rigid (displaced position d) c w) = 0 := by
    rw [ElementMatrix.congruence_apply, hT, ElementMatrix.apply_zero, ElementMatrix.apply_zero]
  have htangent : ElementMatrix.apply (tangentTerm (t.tangentMap tol) p t.deformation)
      (rigid (displaced position d) c w) = 0 := by
    rw [tangentTerm_eq, ElementMatrix.congruence_apply, hT, ElementMatrix.apply_zero,
      ElementMatrix.apply_zero]
  rw [ElementMatrix.add_apply, consistentStiffness, ElementMatrix.add_apply,
    ElementMatrix.add_apply, hmaterial, htangent, ElementMatrix.congruence_apply, hgeometric,
    nodalForce_eq, zero_add, add_zero]
  exact link_transpose_cross t.arm _ w rfl rfl

/-- **The stiffness gives forces without resultant** in any rate. -/
theorem IsCurrent.stiffness_resultant (kl : ElementMatrix ℝ) (p x : ElementVector ℝ) :
    (ElementMatrix.apply (ElementMatrix.add (t.consistentStiffness tol (t.tangentMap tol) kl p)
      (tangentTerm (t.tangentMap tol) p t.deformation)) x).resultant = 0 := by
  have hT (q : ElementVector ℝ) := (h.isBalanced h0 hsound q).force
  have harms (f : ElementVector ℝ) :
      (ElementMatrix.apply (armStiffness t.arm f) x).resultant = 0 := by
    rw [armStiffness_apply]
    exact add_zero 0
  simp only [consistentStiffness, tangentTerm_eq, ElementMatrix.add_apply,
    ElementMatrix.congruence_apply, ElementVector.resultant_add, hT, harms,
    link_transpose_resultant, Triad.geometricStiffness_resultant, add_zero]

end Current

end Transformation

namespace Session

open Transformation (displaced)

variable [SeriesAngle] {ν : Type} {tol : Tolerances ℝ}

/-- Where the nodes are that were reported at the latest evaluation, what was
captured taken away. -/
noncomputable def deformedPosition (s : Session ν ℝ) : Ends (Vec3 ℝ) :=
  displaced s.position s.displacement

/-- **Nodal forces are in equilibrium.** In any current state of any session, with
the nodes where they were reported at the latest evaluation: the nodal forces of
any local forces have no resultant and no moment there, and the tangent
annihilates every rigid rate of the nodes. By
`ElementVector.transpose_isBalanced_iff` each follows from the other. -/
theorem pushForce_balanced (h0 : 0 ≤ tol.parallel) (config : Configuration ℝ)
    (calls : List (Call ν ℝ))
    (hcurrent : (run tol config calls).transformation.stage = .current) :
    let t := (run tol config calls).transformation
    let x := (run tol config calls).deformedPosition
    ∃ T, t.tangent? = .ok T
      ∧ (∀ pl, ∃ f, t.pushForce pl = .ok f ∧ f.i.lin + f.j.lin = 0
        ∧ f.i.rot + f.j.rot + (x.j - x.i).cross f.j.lin = 0)
      ∧ ∀ c w, ElementMatrix.apply T (.rigid x c w) = 0 := by
  intro t x
  obtain ⟨h, hsound, -⟩ := (run_consistent h0 config calls).of_current hcurrent
  refine ⟨_, h.tangent, fun pl => ?_, h.tangentMap_rigid h0 hsound⟩
  have hbalanced := h.isBalanced h0 hsound pl
  exact ⟨_, by rw [Transformation.pushForce, h.tangent]; rfl, hbalanced.force, hbalanced.moment⟩

omit [SeriesAngle] in
/-- The twisted element under an axial force and a moment. -/
theorem pushForce_balanced_twisted :
    letI : SeriesAngle := .exact
    let s := twistedSession .standard
    let x := s.deformedPosition
    ∃ f, s.transformation.pushForce ⟨⟨0, ⟨0, 1, 0⟩⟩, ⟨⟨1, 0, 0⟩, 0⟩⟩ = .ok f
      ∧ f.i.lin + f.j.lin = 0 ∧ f.i.rot + f.j.rot + (x.j - x.i).cross f.j.lin = 0 := by
  let _ : SeriesAngle := .exact
  intro s x
  obtain ⟨hstage, -⟩ := twistedSession_standard
  obtain ⟨T, -, hforce, -⟩ := pushForce_balanced
    Tolerances.standard_admissible_exact.parallel_nonneg straight _ hstage
  exact hforce _

/-- **The stiffness is objective.** In any current state of any session, with the
nodes where they were reported at the latest evaluation, for any local stiffness
and any local forces: the stiffness annihilates the rigid translations, takes a
rigid rotation with the spin `w` to the nodal forces and moments turned by `w`,
and its two rows of forces sum to zero. No condition is on the local rotations,
and the series and the closed form of the tangent serve alike. -/
theorem pushStiffness_rigid (h0 : 0 ≤ tol.parallel) (config : Configuration ℝ)
    (calls : List (Call ν ℝ)) (kl : ElementMatrix ℝ) (pl : ElementVector ℝ)
    (hcurrent : (run tol config calls).transformation.stage = .current) :
    let t := (run tol config calls).transformation
    let x := (run tol config calls).deformedPosition
    ∃ f K notices, t.pushForce pl = .ok f ∧ t.pushStiffness tol kl pl = .ok (K, notices)
      ∧ (∀ c, ElementMatrix.apply K ⟨⟨c, 0⟩, ⟨c, 0⟩⟩ = 0)
      ∧ (∀ w, ElementMatrix.apply K ⟨⟨w.cross x.i, w⟩, ⟨w.cross x.j, w⟩⟩
        = ⟨⟨w.cross f.i.lin, w.cross f.i.rot⟩, ⟨w.cross f.j.lin, w.cross f.j.rot⟩⟩)
      ∧ K.i.lin + K.j.lin = 0 := by
  intro t x
  obtain ⟨h, hsound, -⟩ := (run_consistent h0 config calls).of_current hcurrent
  have hrigid := h.stiffness_rigid h0 hsound kl pl
  refine ⟨_, _, _, by rw [Transformation.pushForce, h.tangent]; rfl,
    by rw [Transformation.pushStiffness, h.tangent]; rfl, fun c => ?_, fun w => ?_, ?_⟩
  · rw [← ElementVector.rigid_translation x]
    refine (hrigid c 0).trans ?_
    exact Slots.ext_slots (Vec3.zero_cross _) (Vec3.zero_cross _) (Vec3.zero_cross _)
      (Vec3.zero_cross _)
  · rw [← ElementVector.rigid_rotation x]
    exact hrigid 0 w
  · refine Covectors.ext_apply fun y => ?_
    exact (Covectors.add_apply _ _ y).trans
      ((h.stiffness_resultant h0 hsound kl pl y).trans (Covectors.zero_apply y).symm)

omit [SeriesAngle] in
/-- The twisted element with unit stiffnesses under an axial force and a
moment. -/
theorem pushStiffness_rigid_twisted :
    letI : SeriesAngle := .exact
    let s := twistedSession .standard
    let x := s.deformedPosition
    let pl : ElementVector ℝ := ⟨⟨0, ⟨0, 1, 0⟩⟩, ⟨⟨1, 0, 0⟩, 0⟩⟩
    ∃ f K notices, s.transformation.pushForce pl = .ok f
      ∧ s.transformation.pushStiffness .standard .identity pl = .ok (K, notices)
      ∧ ElementMatrix.apply K ⟨⟨⟨1, 0, 0⟩, 0⟩, ⟨⟨1, 0, 0⟩, 0⟩⟩ = 0
      ∧ ∀ w, ElementMatrix.apply K ⟨⟨w.cross x.i, w⟩, ⟨w.cross x.j, w⟩⟩
        = ⟨⟨w.cross f.i.lin, w.cross f.i.rot⟩, ⟨w.cross f.j.lin, w.cross f.j.rot⟩⟩ := by
  let _ : SeriesAngle := .exact
  intro s x pl
  obtain ⟨hstage, -⟩ := twistedSession_standard
  obtain ⟨f, K, notices, hf, hK, htranslation, hrotation, -⟩ := pushStiffness_rigid
    Tolerances.standard_admissible_exact.parallel_nonneg straight _ .identity pl hstage
  exact ⟨f, K, notices, hf, hK, htranslation _, hrotation⟩

end Session

end Corotation
