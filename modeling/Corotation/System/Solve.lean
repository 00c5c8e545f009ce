import Corotation.System.Condition
import Corotation.System.Elimination

/-!
# The linear solve with supports

`K d = F` is solved with `d` zero at the fixed components: the rows and columns
of the free components make up a smaller system, which must not be
ill-conditioned. The reactions `K d - F` are what the supports add.
-/

namespace Corotation

open Scalar

/-- The answer of a linear solve. -/
@[ext]
structure Solution (n : Nat) (α : Type) where
  /-- The displacements, zero at the fixed components. -/
  displacement : Vector α n
  /-- The reactions. -/
  reaction : Vector α n
  /-- The free components, in order. -/
  free : List (Fin n)

/-- The components that are not fixed, in order. Only the numbers `0, 1, …` name
components here. -/
def freeComponents (n : Nat) (fixed : List Int) : List (Fin n) :=
  (List.finRange n).filter fun i => !fixed.contains (i.val : Int)

/-- The limit on condition numbers in force when nothing else is asked for. -/
def standardConditionLimit {α : Type} [Scalar α] : α := 100000000000000

/-- A matrix with a condition number above the limit, or with none, is
refused. -/
def checkCondition {α : Type} [Scalar α] [Conditioned α] (rows : List (List α)) (limit : α) :
    Except (Failure α) Unit :=
  match Conditioned.condition rows with
  | .undefined => .error (.fault .decomposition)
  | .infinite => .error (.unstable limit)
  | .finite c => if limit < c then .error (.unstable limit) else .ok ()

/-- The displacements for a right side, zero at the fixed components, with the
reactions. -/
def solveLinear {α : Type} [Scalar α] [Conditioned α] {n : Nat} (K : Square n α)
    (F : Vector α n) (fixed : List Int) (limit : α) : Except (Failure α) (Solution n α) :=
  let free := freeComponents n fixed
  let rows := K.block free free
  match checkCondition rows limit with
  | .error e => .error e
  | .ok () =>
    match solveEquations free.length (rows.zip (free.map F.get)) with
    | none => .error (.fault .decomposition)
    | some xs =>
      let d := SystemVector.scatter SystemVector.zero free xs
      .ok ⟨d, SystemVector.sub (K.apply d) F, free⟩

end Corotation
