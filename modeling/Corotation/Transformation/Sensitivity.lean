import Corotation.Text.Written
import Corotation.Transformation.Basic

/-!
# Sensitivities

The sensitivities of the length and of the deformations to parameters are not
available. A query for one is answered by zero, and says so in a remark of its
own kind.
-/

namespace Corotation

/-- A sensitivity that is not available. -/
inductive Sensitivity where
  /-- The sensitivity of the length. -/
  | length
  /-- The sensitivity of the deformations to a parameter. -/
  | displacement (parameter : Label)
deriving Repr

/-- The remark on a sensitivity that is not available. -/
def Sensitivity.message (tag : Label) : Sensitivity → String
  | .length => "Transform " ++ tag.plain ++ ": length sensitivity is not implemented"
  | .displacement parameter =>
    "Transform " ++ tag.plain ++ ": displacement sensitivity " ++ parameter.plain
      ++ " is not implemented"

namespace Transformation

variable {ν α : Type} [Scalar α]

open Scalar

/-- The answer to a query for a sensitivity. -/
def sensitivity (_ : Transformation ν α) (_ : Sensitivity) : List α := [0]

end Transformation

end Corotation
