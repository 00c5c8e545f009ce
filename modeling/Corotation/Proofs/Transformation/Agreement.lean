import Corotation.Proofs.Transformation.Lifecycle
/-!
# What an update reads

Beside what the nodes report, an update reads the configuration, the reference geometry, the
orientations and the rotational parts seen last. It makes the same of two states that agree
on these, or is refused by both for the same reason, and whatever else they hold it leaves to
each as it was (`update_agrees`).
-/

namespace Corotation

namespace Transformation

variable {ν α : Type} [Scalar α] {t t' : Transformation ν α}
variable {nodes : Ends ν}

/-- Two states with the same configuration, reference geometry, orientations and rotational
parts seen last. -/
structure Agrees (t t' : Transformation ν α) : Prop where
  config : t'.config = t.config
  reference : t'.reference = t.reference
  seen : t'.seen = t.seen
  versor : t'.versor = t.versor

/-- The state in the course of an update, after the turns. -/
def underway (t : Transformation ν α) (seen : Ends (Vec3 α)) (q : Ends (Versor α)) :
    Transformation ν α := { t with stage := .initialized, seen, versor := q }

/-- The state with the triad that was found, if one was. -/
def keepTriad (t : Transformation ν α) (found : Option (Triad α)) : Transformation ν α :=
  { t with triad := found.getD t.triad }

omit [Scalar α] in
/-- Two such states agree again after the same turns. -/
theorem Agrees.underway (h : Agrees t t') (seen : Ends (Vec3 α)) (q : Ends (Versor α)) :
    Agrees (t.underway seen q) (t'.underway seen q) := ⟨h.config, h.reference, rfl, rfl⟩

/-- **The turns** are the same, as far as they go. -/
theorem advance_agrees (h : Agrees t t') (rot : Ends (Vec3 α)) :
    (∃ q, { t with stage := .initialized }.advance rot = .ok (t.underway rot q) ()
        ∧ { t' with stage := .initialized }.advance rot = .ok (t'.underway rot q) ())
      ∨ ∃ seen q e, { t with stage := .initialized }.advance rot = .fail (t.underway seen q) e
        ∧ { t' with stage := .initialized }.advance rot = .fail (t'.underway seen q) e := by
  unfold advance
  simp only [h.seen, h.versor]
  cases turned rot.i t.seen.i t.versor.i with
  | error e =>
    -- the part of the first end is noted before its turn is refused
    refine .inr ⟨⟨rot.i, t.seen.j⟩, t.versor, e, rfl, ?_⟩
    rw [underway, ← h.versor]
  | ok qi =>
    cases turned rot.j t.seen.j t.versor.j with
    | error e => exact .inr ⟨rot, ⟨qi, t.versor.j⟩, e, rfl, rfl⟩
    | ok qj => exact .inl ⟨⟨qi, qj⟩, rfl, rfl⟩

open Scalar in
/-- **The evaluations** find the same, as far as they go. -/
theorem evaluate_agrees (tol : Tolerances α) (h : Agrees t t') (d : Ends (Displacement α)) :
    (∃ u, t.evaluate tol d = .ok (t.withCache u) () ∧ t'.evaluate tol d = .ok (t'.withCache u) ())
      ∨ ∃ found e, t.evaluate tol d = .fail (t.keepTriad found) e
        ∧ t'.evaluate tol d = .fail (t'.keepTriad found) e := by
  have hrotation : t'.nodalRotation = t.nodalRotation := by
    rw [nodalRotation, h.versor, nodalRotation]
  have harm : t'.armsOf t.nodalRotation = t.armsOf t.nodalRotation := by
    rw [armsOf, h.reference, armsOf]
  have hchord : t'.chordOf d (t.armsOf t.nodalRotation)
      = t.chordOf d (t.armsOf t.nodalRotation) := by
    rw [chordOf, h.reference, chordOf]
  have hundeformed : t'.reference.length = t.reference.length :=
    congrArg Reference.length h.reference
  have htag : t'.tag = t.tag := congrArg Configuration.tag h.config
  unfold evaluate
  simp only [hrotation, harm, hchord, hundeformed, htag]
  generalize t.chordOf d (t.armsOf t.nodalRotation) = dx
  by_cases hlength : dx.norm ≤ 0
  · simp only [if_pos hlength]
    exact .inr ⟨none, _, rfl, rfl⟩
  simp only [if_neg hlength]
  cases Triad.ofRotations tol t.nodalRotation dx with
  | error e => exact .inr ⟨none, e, rfl, rfl⟩
  | ok triad =>
    simp only
    cases localRotations triad.axes t.nodalRotation with
    -- the triad stays where only the local rotations are refused
    | error e => exact .inr ⟨some triad, e, rfl, rfl⟩
    | ok theta =>
      exact .inl ⟨{ t with
        triad, deformation := deformationOf (dx.norm - t.reference.length) theta,
        deformedLength := dx.norm, arm := t.armsOf t.nodalRotation, tangent := some _ }, rfl, rfl⟩

/-- **An update makes the same of both**, or is refused by both for the same reason. -/
theorem update_agrees (tol : Tolerances α) (h : Agrees t t') (hbound : t.bound? = .ok nodes)
    (hbound' : t'.bound? = .ok nodes) {trial trial' : ν → Displacement α}
    (hd : t'.displacement (nodes.map trial') = t.displacement (nodes.map trial)) :
    (∃ seen q u, t.update tol trial = .ok ((t.underway seen q).withCache u) ()
        ∧ t'.update tol trial' = .ok ((t'.underway seen q).withCache u) ())
      ∨ ∃ seen q found e, t.update tol trial = .fail ((t.underway seen q).keepTriad found) e
        ∧ t'.update tol trial' = .fail ((t'.underway seen q).keepTriad found) e := by
  rw [update_of_bound hbound, update_of_bound hbound', hd]
  rcases advance_agrees h ((t.displacement (nodes.map trial)).map Screw.rot) with
    ⟨q, hadvance, hadvance'⟩ | ⟨seen, q, e, hadvance, hadvance'⟩
  · rw [hadvance, hadvance', Outcome.ok_andThen, Outcome.ok_andThen]
    rcases evaluate_agrees tol (h.underway _ q) (t.displacement (nodes.map trial)) with
      ⟨u, hok, hok'⟩ | ⟨found, e, hfail, hfail'⟩
    · exact .inl ⟨_, q, u, hok, hok'⟩
    · exact .inr ⟨_, q, found, e, hfail, hfail'⟩
  · rw [hadvance, hadvance', Outcome.fail_andThen, Outcome.fail_andThen]
    exact .inr ⟨seen, q, none, e, rfl, rfl⟩

end Transformation

end Corotation
