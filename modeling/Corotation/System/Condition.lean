import Corotation.Scalar

/-!
# Condition numbers

The condition number of a matrix is the quotient of its largest and smallest
singular value. It is infinite for a singular matrix, and a matrix without rows
or with entries that are not numbers has none.

How it is found depends on the number type, so it is an operation of the type.
-/

namespace Corotation

/-- The condition number of a matrix. -/
inductive Condition (α : Type) where
  /-- There is none. -/
  | undefined
  /-- The matrix is singular. -/
  | infinite
  /-- The quotient of the extreme singular values. -/
  | finite (number : α)
deriving Repr

/-- Number types whose matrices, given by rows, have condition numbers. -/
class Conditioned (α : Type) where
  /-- The condition number of a square matrix given by its rows. -/
  condition : List (List α) → Condition α

end Corotation
