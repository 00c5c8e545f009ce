import Corotation.Failure

/-!
# Outcomes — what an operation on a state leaves behind

An operation that changes a state always leaves one, also when it fails: part of
the work may have been done before the failure showed. So an outcome carries
the state afterwards, the notices written on the way, and the result.
-/

namespace Corotation

/-- A remark written in the course of an operation. -/
inductive Notice (α : Type) where
  /-- A transformation found its nodes displaced when it was initialized. -/
  | captured (tag : Label)
  /-- A local rotation at an end (0 or 1) is close to a right angle. -/
  | nearRightAngle (tag : Label) (rotation : Vec3 α) (endIndex : Nat)
  /-- A load step converged. -/
  | converged (step steps iterations : Nat)
deriving Repr

/-- What an operation on a state of type `σ` leaves behind. -/
structure Outcome (α σ β : Type) where
  /-- The state afterwards. -/
  state : σ
  /-- The remarks, in order. -/
  notices : List (Notice α)
  /-- The result, or why there is none. -/
  result : Except (Failure α) β

namespace Outcome

variable {α σ β γ : Type}

/-- A successful outcome without remarks. -/
def ok (state : σ) (result : β) : Outcome α σ β := ⟨state, [], .ok result⟩

/-- A failed outcome without remarks. -/
def fail (state : σ) (cause : Failure α) : Outcome α σ β := ⟨state, [], .error cause⟩

/-- A second operation after a first, skipped when the first failed. -/
def andThen (o : Outcome α σ β) (next : σ → β → Outcome α σ γ) : Outcome α σ γ :=
  match o.result with
  | .error e => ⟨o.state, o.notices, .error e⟩
  | .ok b =>
    let o' := next o.state b
    ⟨o'.state, o.notices ++ o'.notices, o'.result⟩

/-- An operation done on each state of a list in turn, up to the first that
fails. -/
def forEach (f : σ → Outcome α σ Unit) : List σ → Outcome α (List σ) Unit
  | [] => .ok [] ()
  | s :: rest =>
    let o := f s
    match o.result with
    | .error e => ⟨o.state :: rest, o.notices, .error e⟩
    | .ok () =>
      let o' := forEach f rest
      ⟨o.state :: o'.state, o.notices ++ o'.notices, o'.result⟩

/-- The operation succeeded. -/
def Succeeded (o : Outcome α σ β) : Prop := ∃ b, o.result = .ok b

end Outcome

end Corotation
