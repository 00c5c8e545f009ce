import Corotation.Proofs.Transformation.Lifecycle
/-!
# Amended states

The configuration of a state is read when nodes are bound, and after that for the name in
failures and remarks alone. What was captured is read through the displacements that nodes
report, less what was captured, and in no other way. So an operation on bound nodes takes a
state whose configuration and capture were amended to where it takes the state itself, amended
as well, as long as the name is kept and the displacements come out the same
(`update_amended` and its like).
-/

namespace Corotation

namespace Outcome

variable {α σ β γ : Type}

/-- The outcome with another state in place of the one it leaves. -/
def mapState (f : σ → σ) (o : Outcome α σ β) : Outcome α σ β := { o with state := f o.state }

/-- A second operation after a first, if it goes with the change of state. -/
theorem mapState_andThen {f : σ → σ} {o : Outcome α σ β} {next : σ → β → Outcome α σ γ}
    (h : ∀ s b, next (f s) b = (next s b).mapState f) :
    (o.mapState f).andThen next = (o.andThen next).mapState f := by
  unfold Outcome.andThen
  cases hresult : o.result with
  | error e => simp only [mapState, hresult]
  | ok b => simp only [mapState, hresult, h]

end Outcome

namespace Transformation

variable {ν α : Type} {t : Transformation ν α}

/-- The state with its configuration changed, and with what was captured. -/
def amended (f : Configuration α → Configuration α) (g : Capture → Capture)
    (h : Ends (Displacement α) → Ends (Displacement α)) (t : Transformation ν α) :
    Transformation ν α :=
  { t with config := f t.config, capture := g t.capture, initial := h t.initial }

variable {f : Configuration α → Configuration α} {g : Capture → Capture}
variable {h : Ends (Displacement α) → Ends (Displacement α)}
variable [Scalar α] {tol : Tolerances α}

/-- The turns read neither. -/
theorem advance_amended (rot : Ends (Vec3 α)) :
    (t.amended f g h).advance rot = (t.advance rot).mapState (amended f g h) := by
  unfold advance
  simp only [amended]
  cases turned rot.i t.seen.i t.versor.i with
  | error e => rfl
  | ok qi =>
    cases turned rot.j t.seen.j t.versor.j with
    | error e => rfl
    | ok qj => rfl

/-- Neither does the reference geometry that is in place. -/
theorem settle_amended :
    (t.amended f g h).settle tol = (t.settle tol).mapState (amended f g h) := by
  unfold settle
  simp only [amended]
  cases Versor.ofMatrix t.reference.axes with
  | error e => rfl
  | ok q =>
    simp only [start]
    cases Triad.ofReference tol t.reference.chord t.reference.axes with
    | error e => rfl
    | ok triad => rfl

variable (hf : ∀ c, (f c).tag = c.tag)

include hf

omit [Scalar α] in
theorem tag_amended : (t.amended f g h).tag = t.tag := hf t.config

omit [Scalar α] in
theorem bound?_amended : (t.amended f g h).bound? = t.bound? := by
  have htag := tag_amended (t := t) (g := g) (h := h) hf
  unfold bound?
  rw [htag]
  rfl

omit [Scalar α] in
theorem tangent?_amended : (t.amended f g h).tangent? = t.tangent? := by
  have hstage : (t.amended f g h).outOfStage = t.outOfStage := by
    unfold outOfStage
    rw [tag_amended hf]
    rfl
  unfold tangent?
  rw [hstage]
  rfl

open Scalar in
/-- An evaluation names the element where it is refused. -/
theorem evaluate_amended (d : Ends (Displacement α)) :
    (t.amended f g h).evaluate tol d = (t.evaluate tol d).mapState (amended f g h) := by
  have htag := tag_amended (t := t) (g := g) (h := h) hf
  have hrotation : (t.amended f g h).nodalRotation = t.nodalRotation := rfl
  have harm : (t.amended f g h).armsOf t.nodalRotation = t.armsOf t.nodalRotation := rfl
  have hchord : (t.amended f g h).chordOf d (t.armsOf t.nodalRotation)
      = t.chordOf d (t.armsOf t.nodalRotation) := rfl
  unfold evaluate
  simp only [hrotation, harm, hchord, htag]
  by_cases hlength : (t.chordOf d (t.armsOf t.nodalRotation)).norm ≤ 0
  · rw [if_pos hlength, if_pos hlength]
    rfl
  · rw [if_neg hlength, if_neg hlength]
    cases Triad.ofRotations tol t.nodalRotation (t.chordOf d (t.armsOf t.nodalRotation)) with
    | error e => rfl
    | ok triad =>
      simp only
      cases localRotations triad.axes t.nodalRotation with
      | error e => rfl
      | ok theta => rfl

omit [Scalar α] in
/-- A commit needs nodes, and no more than that. -/
theorem commit_amended : (t.amended f g h).commit = t.commit.mapState (amended f g h) := by
  unfold commit
  rw [bound?_amended hf]
  cases t.bound? <;> rfl

section Following

variable {trial trial' : ν → Displacement α}
variable (hd : ∀ nodes, t.bound? = .ok nodes →
  (t.amended f g h).displacement (nodes.map trial) = t.displacement (nodes.map trial'))

include hd

/-- **An update** at the same displacements. -/
theorem update_amended :
    (t.amended f g h).update tol trial = (t.update tol trial').mapState (amended f g h) := by
  cases hbound : t.bound? with
  | error e =>
    unfold update
    rw [bound?_amended hf, hbound]
    rfl
  | ok nodes =>
    rw [update_of_bound hbound, update_of_bound ((bound?_amended hf).trans hbound),
      hd nodes hbound, ← Outcome.mapState_andThen fun _ _ => evaluate_amended hf _,
      ← advance_amended]
    rfl

/-- **A revert** restores the same commit. -/
theorem revert_amended :
    (t.amended f g h).revert tol trial = (t.revert tol trial').mapState (amended f g h) := by
  cases hbound : t.bound? with
  | error e =>
    unfold revert
    rw [bound?_amended hf, hbound]
    rfl
  | ok nodes =>
    have hrestore : (t.amended f g h).restore (nodes.map trial)
        = (t.restore (nodes.map trial')).amended f g h := by
      rw [restore, hd nodes hbound]
      rfl
    rw [revert_of_bound hbound, revert_of_bound ((bound?_amended hf).trans hbound), hrestore]
    exact update_amended hf hd

/-- **A reset** goes back to the same start. -/
theorem reset_amended :
    (t.amended f g h).reset tol trial = (t.reset tol trial').mapState (amended f g h) := by
  cases hbound : t.bound? with
  | error e =>
    unfold reset
    rw [bound?_amended hf, hbound]
    rfl
  | ok nodes =>
    have hbound' := (bound?_amended (t := t) (g := g) (h := h) hf).trans hbound
    cases hq : Versor.ofMatrix t.reference.axes with
    | error e =>
      have hq' : Versor.ofMatrix (t.amended f g h).reference.axes = .error e := hq
      unfold reset
      simp only [hbound, hbound', hq, hq']
      rfl
    | ok q =>
      have hupdate : ((t.backAtStart q).amended f g h).update tol trial
          = ((t.backAtStart q).update tol trial').mapState (amended f g h) :=
        update_amended hf hd
      rw [reset_of_bound hbound hq, reset_of_bound (q := q) hbound' hq,
        ← Outcome.mapState_andThen fun _ _ => commit_amended hf, ← hupdate]
      rfl

end Following

end Transformation

end Corotation
