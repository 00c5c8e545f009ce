import Corotation.System.Assembly

/-!
# Elimination

A system of linear equations is solved one unknown at a time. The equation with
the largest leading coefficient is solved for the first unknown, the others are
freed of it, and the smaller system is solved first. A leading coefficient that
is zero in every equation ends the elimination without a solution.
-/

namespace Corotation

open Scalar

/-- A linear equation: coefficients of the unknowns, and the right side. -/
structure Equation (α : Type) where
  /-- The coefficient of the first unknown. -/
  lead : α
  /-- The coefficients of the other unknowns. -/
  rest : List α
  /-- The right side. -/
  right : α
deriving Repr

namespace Equation

variable {α : Type} [Scalar α]

/-- The equation with the given coefficients and right side; an equation needs
at least one unknown. -/
def ofCoefficients? (coefficients : List α) (right : α) : Option (Equation α) :=
  match coefficients with
  | [] => none
  | c :: cs => some ⟨c, cs, right⟩

/-- The first of the equations whose leading coefficient is the largest in
magnitude, with the others in order. -/
def choose (e : Equation α) : List (Equation α) → Equation α × List (Equation α)
  | [] => (e, [])
  | e' :: es =>
    let (best, others) := choose e' es
    if magnitude e.lead < magnitude best.lead then (best, e :: others) else (e, e' :: es)

/-- The coefficients and right side of an equation freed of its first unknown by
a multiple of another. -/
def free (pivot e : Equation α) : List α × α :=
  let m := e.lead / pivot.lead
  (List.zipWith (fun a p => a - m * p) e.rest pivot.rest, e.right - m * pivot.right)

end Equation

variable {α : Type} [Scalar α]

/-- The solution of a system of equations in the given number of unknowns. -/
def solveEquations : Nat → List (List α × α) → Option (List α)
  | 0, _ => some []
  | k + 1, system =>
    match system.filterMap fun e => Equation.ofCoefficients? e.1 e.2 with
    | [] => none
    | e :: es =>
      let (pivot, others) := Equation.choose e es
      if IsZero pivot.lead then none
      else
        match solveEquations k (others.map pivot.free) with
        | none => none
        | some xs => some ((pivot.right - SystemVector.dotList pivot.rest xs) / pivot.lead :: xs)

end Corotation
