import Corotation.Proofs.Transformation.Offsets
import Corotation.Proofs.Transformation.RigidMotion
/-!
# Forces and stiffnesses under rigid moves

A turned state reports the same map of the nodes, with its arguments turned
back first and, where they are vectors at the nodes, its results turned: the
tangent, the nodal forces, and the stiffness in each of its parts. So a rigid
move of the nodes multiplies the stiffness by the block diagonal of its rotation
on one side and by the transpose on the other (`rigid_covariance`).
-/

namespace Corotation

namespace Transformation

variable [SeriesAngle] {ν : Type} {tol : Tolerances ℝ} {t t' : Transformation ν ℝ} {g : Mat3 ℝ}

open ElementMatrix (turning)

/-! ## The parts of the projection -/

/-- **The tangent** of a turned state takes nodal increments back first. -/
theorem IsTurned.tangentMap (hg : g.IsRotation) (h : IsTurned g t t') :
    t'.tangentMap tol = ElementMatrix.mul (t.tangentMap tol) (turning g).transpose := by
  refine ElementMatrix.ext_apply fun x => ?_
  simp only [Transformation.tangentMap, ElementMatrix.mul_apply, ElementMatrix.turning_transpose,
    ElementMatrix.turning_apply, h.triad, h.deformation, h.arm, Triad.deformationTangent_turn,
    link_turn hg, map_transpose_map hg]

/-- A matrix between a map with its increments taken back first. -/
theorem congruence_turn (T k : ElementMatrix ℝ) (g : Mat3 ℝ) :
    ElementMatrix.congruence (ElementMatrix.mul T (turning g).transpose) k
      = ElementMatrix.mul (ElementMatrix.mul (turning g) (ElementMatrix.congruence T k))
        (turning g).transpose := by
  refine ElementMatrix.ext_apply fun x => ?_
  simp only [ElementMatrix.congruence_apply, ElementMatrix.mul_apply,
    ElementMatrix.transpose_mul_apply, ElementMatrix.transpose_transpose]

/-- **The term with the tangents of the local rotations** is a matrix between
the tangent and its transpose as well. -/
theorem tangentTerm_turn (T : ElementMatrix ℝ) (g : Mat3 ℝ) (p ul : ElementVector ℝ) :
    tangentTerm (ElementMatrix.mul T (turning g).transpose) p ul
      = ElementMatrix.mul (ElementMatrix.mul (turning g) (tangentTerm T p ul))
        (turning g).transpose := by
  rw [tangentTerm_eq, tangentTerm_eq, congruence_turn]

/-- **The nodal forces** turn. -/
theorem transpose_apply_turn (T : ElementMatrix ℝ) (g : Mat3 ℝ) (p : ElementVector ℝ) :
    ElementMatrix.apply (ElementMatrix.mul T (turning g).transpose).transpose p
      = ElementMatrix.apply (turning g) (ElementMatrix.apply T.transpose p) := by
  rw [ElementMatrix.transpose_mul_apply, ElementMatrix.transpose_transpose]

/-- **The geometric stiffness at the nodes** turns, with the link of the turned
arms around that of the turned triad. -/
theorem IsTurned.geometricStiffness (hg : g.IsRotation) (h : IsTurned g t t')
    (p : ElementVector ℝ) :
    ElementMatrix.congruence (link t'.arm) (t'.triad.geometricStiffness tol p t'.deformation)
      = ElementMatrix.mul (ElementMatrix.mul (turning g) (ElementMatrix.congruence (link t.arm)
        (t.triad.geometricStiffness tol p t.deformation))) (turning g).transpose := by
  refine ElementMatrix.ext_apply fun x => ?_
  simp only [ElementMatrix.congruence_apply, ElementMatrix.mul_apply,
    ElementMatrix.turning_transpose, ElementMatrix.turning_apply, h.triad, h.deformation, h.arm,
    link_turn hg, Triad.geometricStiffness_turn tol t.triad g _ p t.deformation hg,
    map_transpose_map hg, link_turn_transpose hg]

/-- **The stiffness of the arms** turns with the arms and the forces. -/
theorem IsTurned.armStiffness (hg : g.IsRotation) (h : IsTurned g t t')
    (force : ElementVector ℝ) :
    Transformation.armStiffness t'.arm (ElementMatrix.apply (turning g) force)
      = ElementMatrix.mul (ElementMatrix.mul (turning g)
        (Transformation.armStiffness t.arm force)) (turning g).transpose := by
  refine ElementMatrix.ext_apply fun x => ?_
  simp only [ElementMatrix.mul_apply, ElementMatrix.turning_transpose, ElementMatrix.turning_apply,
    h.arm, armStiffness_turn hg]

/-- **The stiffness** turns, the part without the tangents of the local
rotations and the part with them. -/
theorem IsTurned.stiffness (hg : g.IsRotation) (h : IsTurned g t t') (T kl : ElementMatrix ℝ)
    (p : ElementVector ℝ) :
    ElementMatrix.add
        (t'.consistentStiffness tol (ElementMatrix.mul T (turning g).transpose) kl p)
        (tangentTerm (ElementMatrix.mul T (turning g).transpose) p t'.deformation)
      = ElementMatrix.mul (ElementMatrix.mul (turning g) (ElementMatrix.add
        (t.consistentStiffness tol T kl p) (tangentTerm T p t.deformation)))
        (turning g).transpose := by
  refine ElementMatrix.ext_apply fun x => ?_
  rw [consistentStiffness, congruence_turn, h.geometricStiffness hg, transpose_apply_turn,
    h.armStiffness hg, h.deformation, tangentTerm_turn]
  simp only [consistentStiffness, ElementMatrix.mul_apply, ElementMatrix.add_apply,
    ElementMatrix.apply_add]

/-- The remarks on a turned state are those on the state. -/
theorem IsTurned.rightAngleNotices (h : IsTurned g t t') :
    Transformation.rightAngleNotices tol t'.tag t'.deformation
      = Transformation.rightAngleNotices tol t.tag t.deformation := by
  rw [h.deformation, tag, tag, h.config]

end Transformation

namespace Session

open ElementMatrix (turning)

variable [SeriesAngle] {ν : Type} {tol : Tolerances ℝ} {nodes : Ends ν} {m : RigidMove ν}

/-- **Forces and stiffnesses turn with a rigid move.** From any current state of
any session, after any rigid move of the nodes: with the block diagonal `B` of
its rotation, the tangent is the former one times the transpose of `B`, the
nodal forces of any local forces are `B` times the former ones, and the
stiffness for any local stiffness and forces is the former one between `B` and
its transpose. The remarks made on the way are the same. -/
theorem rigid_covariance (h0 : 0 ≤ tol.parallel) (config : Configuration ℝ)
    (calls : List (Call ν ℝ)) (kl : ElementMatrix ℝ) (pl : ElementVector ℝ)
    (hcurrent : (run tol config calls).transformation.stage = .current)
    (hmove : m.Applies (run tol config calls) nodes) :
    let t := (run tol config calls).transformation
    let t' := ((run tol config calls).next tol m.call).transformation
    let B := turning m.rotation
    (t.update tol m.trial).result = .ok ()
      ∧ ∃ T f K notices, t.tangent? = .ok T ∧ t.pushForce pl = .ok f
        ∧ t.pushStiffness tol kl pl = .ok (K, notices)
        ∧ t'.tangent? = .ok (ElementMatrix.mul T B.transpose)
        ∧ t'.pushForce pl = .ok (ElementMatrix.apply B f)
        ∧ t'.pushStiffness tol kl pl
          = .ok (ElementMatrix.mul (ElementMatrix.mul B K) B.transpose, notices) := by
  intro t t' B
  have hconsistent := run_consistent h0 config calls
  have hg : m.rotation.IsRotation := Versor.isRotation_turn m.spin
  obtain ⟨t₁, hupdate, hnext, -, -, hcur, hturned⟩ := rigid_step h0 hconsistent hcurrent hmove
  obtain rfl : t' = t₁ := hnext
  have hT : t.tangent? = .ok (t.tangentMap tol) := (hconsistent.current hcurrent).tangent
  have hT' : t'.tangent? = .ok (ElementMatrix.mul (t.tangentMap tol) B.transpose) := by
    rw [← hturned.tangentMap hg]
    exact hcur.tangent
  refine ⟨congrArg Outcome.result hupdate, _, _, _, _, hT,
    by rw [Transformation.pushForce, hT]; rfl,
    by rw [Transformation.pushStiffness, hT]; rfl, hT', ?_, ?_⟩
  · rw [Transformation.pushForce, hT']
    exact congrArg Except.ok (Transformation.transpose_apply_turn _ _ _)
  · rw [Transformation.pushStiffness, hT']
    exact congrArg Except.ok (Prod.ext (hturned.stiffness hg _ kl pl) hturned.rightAngleNotices)

omit [SeriesAngle] in
/-- The twisted element with unit stiffnesses under an axial force and a moment,
turned and shifted. -/
theorem rigid_covariance_twisted :
    letI : SeriesAngle := .exact
    let s := twistedSession .standard
    let m := s.rigidMove ⟨false, true⟩ ⟨0, 0, 1⟩ ⟨1, 0, 0⟩
    let t' := (s.next .standard m.call).transformation
    let B := turning m.rotation
    let pl : ElementVector ℝ := ⟨⟨0, ⟨0, 1, 0⟩⟩, ⟨⟨1, 0, 0⟩, 0⟩⟩
    ∃ f K notices, s.transformation.pushForce pl = .ok f
      ∧ s.transformation.pushStiffness .standard .identity pl = .ok (K, notices)
      ∧ t'.pushForce pl = .ok (ElementMatrix.apply B f)
      ∧ t'.pushStiffness .standard .identity pl
        = .ok (ElementMatrix.mul (ElementMatrix.mul B K) B.transpose, notices) := by
  let _ : SeriesAngle := .exact
  intro s m t' B pl
  have h0 := Tolerances.standard_admissible_exact.parallel_nonneg
  obtain ⟨hstage, hnodes, -, -⟩ := twistedSession_standard
  have hmove : m.Applies s ⟨false, true⟩ := rigidMove_applies hnodes Bool.false_ne_true _ _
  obtain ⟨-, T, f, K, notices, -, hf, hK, -, hf', hK'⟩ :=
    rigid_covariance h0 straight _ .identity pl hstage hmove
  exact ⟨f, K, notices, hf, hK, hf', hK'⟩

end Session

end Corotation
