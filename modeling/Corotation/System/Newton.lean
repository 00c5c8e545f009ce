import Corotation.Outcome
import Corotation.System.Solve
import Corotation.Tolerances

/-!
# Newton's method under proportional loading

A reference load is applied in equal increments. In each, the model is evaluated
at a displacement, and while the residual on the free components is too large
the displacement is corrected by a linear solve with the tangent:

    K d' = λ F - R(d),   d := d + d'     until |λ F - R(d)| ≤ tol · max |λ F| 1.

The model is a state that the evaluations change. It may offer to be committed,
which happens after each converged increment, and to be reverted, which happens
when an increment is given up. What was done in which order is part of the
answer.
-/

namespace Corotation

open Scalar

/-- The tangent and the resisting forces of a model at a displacement. -/
@[ext]
structure Response (n : Nat) (α : Type) where
  /-- The tangent stiffness. -/
  tangent : Square n α
  /-- The resisting forces. -/
  force : Vector α n

/-- A model with a state of type `σ` and `n` components. -/
structure Model (σ : Type) (n : Nat) (α : Type) where
  /-- The response at a displacement. -/
  respond : Vector α n → σ → Outcome α σ (Response n α)
  /-- What to do when an increment has converged, if anything. -/
  commit? : Option (σ → Outcome α σ Unit)
  /-- What to do when an increment is given up, if anything. -/
  revert? : Option (σ → Outcome α σ Unit)

namespace Newton

/-- What happened in a run. -/
inductive Event (n : Nat) (α : Type) where
  /-- The model was evaluated at a displacement. -/
  | evaluated (displacement : Vector α n)
  /-- A remark was made. -/
  | remarked (notice : Notice α)
  /-- The model was committed. -/
  | committed
  /-- The model was reverted. -/
  | reverted

/-- How a run is to be made. -/
structure Settings (α : Type) where
  /-- The number of load increments. -/
  steps : Nat
  /-- The relative size of a residual that counts as converged. -/
  tolerance : α
  /-- The number of iterations allowed in an increment. -/
  iterations : Int
  /-- The condition number allowed for a tangent. -/
  conditionLimit : α

/-- Ten increments, with the thresholds in force. -/
def Settings.standard {α : Type} [Scalar α] (tol : Tolerances α) : Settings α where
  steps := 10
  tolerance := tol.residual
  iterations := tol.iterations
  conditionLimit := standardConditionLimit

/-- How the iteration of a load increment ended. -/
inductive Ending (n : Nat) (α : Type) where
  /-- It converged at a displacement in so many iterations. -/
  | converged (displacement : Vector α n) (iterations : Nat)
  /-- The iterations ran out, with the last residual if there was one. -/
  | exhausted (residual : Option α)
  /-- The tangent was singular in an iteration, by the limit on the condition
  number. -/
  | singular (iteration : Nat) (limit : α)
  /-- The evaluation or the linear algebra failed otherwise. -/
  | failed (cause : Failure α)

/-- A part of a run: the state afterwards, what happened, and how it ended. -/
structure Part (σ : Type) (n : Nat) (α β : Type) where
  /-- The state afterwards. -/
  state : σ
  /-- What happened, in order. -/
  events : List (Event n α)
  /-- How it ended. -/
  ending : β

variable {σ α : Type} [Scalar α] [Conditioned α] {n : Nat}

/-- What is the same in all iterations of an increment. -/
structure Increment (n : Nat) (α : Type) where
  /-- The load. -/
  load : Vector α n
  /-- The size of a residual that counts as converged. -/
  tolerance : α
  /-- The components kept out of the residual. -/
  held : List (Fin n)
  /-- The component numbers handed to the linear solve. -/
  fixed : List Int
  /-- The condition number allowed for a tangent. -/
  conditionLimit : α

/-- The iterations of an increment, at most `budget` of them, the first having
the given number. -/
def iterate (m : Model σ n α) (inc : Increment n α) :
    (budget iteration : Nat) → Vector α n → Option α → σ → Part σ n α (Ending n α)
  | 0, _, _, residual, s => ⟨s, [], .exhausted residual⟩
  | budget + 1, iteration, d, _, s =>
    let o := m.respond d s
    let events := .evaluated d :: o.notices.map .remarked
    match o.result with
    | .error e => ⟨o.state, events, .failed e⟩
    | .ok response =>
      let r := SystemVector.clear (SystemVector.sub inc.load response.force) inc.held
      let size := SystemVector.norm r
      if size ≤ inc.tolerance then ⟨o.state, events, .converged d iteration⟩
      else
        match solveLinear response.tangent r inc.fixed inc.conditionLimit with
        | .error (.unstable limit) => ⟨o.state, events, .singular iteration limit⟩
        | .error e => ⟨o.state, events, .failed e⟩
        | .ok correction =>
          let part := iterate m inc budget (iteration + 1)
            (SystemVector.add d correction.displacement) (some size) o.state
          { part with events := events ++ part.events }

/-- A hook of the model called, if there is one, and recorded. -/
def call (hook? : Option (σ → Outcome α σ Unit)) (event : Event n α) (s : σ) :
    Part σ n α (Except (Failure α) Unit) :=
  match hook? with
  | none => ⟨s, [], .ok ()⟩
  | some hook =>
    let o := hook s
    ⟨o.state, event :: o.notices.map .remarked, o.result⟩

/-- The model reverted and the run ended for a cause, unless reverting fails for
another. -/
def giveUp (m : Model σ n α) (cause : Failure α) (s : σ) : Part σ n α (Failure α) :=
  let part := call m.revert? .reverted s
  match part.ending with
  | .error e => ⟨part.state, part.events, e⟩
  | .ok () => ⟨part.state, part.events, cause⟩

/-- The load increment with a given number. The fixed components must be ones
that the system has, those below zero being counted from the end. -/
def increment (settings : Settings α) (F : Vector α n) (fixed : List Int) (step : Nat) :
    Except (Failure α) (Increment n α) := do
  let held ← resolve n fixed
  let factor := Scalar.ofNat step / Scalar.ofNat settings.steps
  let load := SystemVector.scale factor F
  let size := larger (SystemVector.normList (SystemVector.without load held)) 1
  return ⟨load, settings.tolerance * size, held, fixed, settings.conditionLimit⟩

/-- One load increment from a displacement: iterations, then a commit or a
revert. -/
def loadStep (m : Model σ n α) (settings : Settings α) (F : Vector α n) (fixed : List Int)
    (step : Nat) (d : Vector α n) (s : σ) :
    Part σ n α (Except (Failure α) (Vector α n × Nat)) :=
  match increment settings F fixed step with
  | .error e => ⟨s, [], .error e⟩
  | .ok inc =>
    let part := iterate m inc settings.iterations.toNat 1 d none s
    match part.ending with
    | .converged d it =>
      let done := call m.commit? .committed part.state
      match done.ending with
      | .error e => ⟨done.state, part.events ++ done.events, .error e⟩
      | .ok () =>
        ⟨done.state,
         part.events ++ done.events ++ [.remarked (.converged step settings.steps it)],
         .ok (d, it)⟩
    | .exhausted residual =>
      let cause :=
        Divergence.notConverged step settings.iterations residual inc.tolerance
      let rest := giveUp m (.divergence cause) part.state
      ⟨rest.state, part.events ++ rest.events, .error rest.ending⟩
    | .singular it limit =>
      let rest := giveUp m (.divergence (.singularTangent step it limit)) part.state
      ⟨rest.state, part.events ++ rest.events, .error rest.ending⟩
    | .failed e => ⟨part.state, part.events, .error e⟩

/-- So many load increments from a displacement, the first having the given
number, with the iterations each took. -/
def loadSteps (m : Model σ n α) (settings : Settings α) (F : Vector α n) (fixed : List Int) :
    (remaining step : Nat) → Vector α n → σ →
      Part σ n α (Except (Failure α) (Vector α n × List Nat))
  | 0, _, d, s => ⟨s, [], .ok (d, [])⟩
  | remaining + 1, step, d, s =>
    let part := loadStep m settings F fixed step d s
    match part.ending with
    | .error e => ⟨part.state, part.events, .error e⟩
    | .ok (d, it) =>
      let rest := loadSteps m settings F fixed remaining (step + 1) d part.state
      ⟨rest.state, part.events ++ rest.events, rest.ending.map fun (d, its) => (d, it :: its)⟩

end Newton

/-- The displacement under the reference load, applied in equal increments from
the undisplaced state, with the iterations of each increment. -/
def solveNewton {σ α : Type} [Scalar α] [Conditioned α] {n : Nat} (m : Model σ n α)
    (settings : Newton.Settings α) (F : Vector α n) (fixed : List Int) (s : σ) :
    Newton.Part σ n α (Except (Failure α) (Vector α n × List Nat)) :=
  Newton.loadSteps m settings F fixed settings.steps 1 SystemVector.zero s

end Corotation
