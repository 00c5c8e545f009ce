import Corotation.Supplied.Grid
import Corotation.System.Newton

/-!
# Systems of supplied data

Assembly, the linear solve and Newton's method for grids. The number of rows of a
matrix is the size of its system. What is read of the other operands must be
there: a component that a free row or column lacks is a position outside its
range, and only after the solve do lengths have to agree.
-/

namespace Corotation

open Scalar

namespace Supplied

variable {α : Type} [Scalar α]

/-! ## Assembly -/

/-- An element vector or an element matrix with the component numbers that its
rows go to. What is no whole number is no component. -/
structure Contribution (α : Type) where
  /-- The component numbers. -/
  map : List (Option Int)
  /-- The entries. -/
  entries : Grid α

/-- The component number that a document stands for. -/
def componentNumber? : Document → Option Int
  | .int n => some n
  | _ => none

/-- The positions that the component numbers of a contribution name. -/
def Contribution.positions (c : Contribution α) (n : Nat) : Except (Failure α) (List (Fin n)) :=
  match c.map.mapM id with
  | some map => resolve n map
  | none => .error (.fault .indexRange)

/-- The vector with an element vector added where a map sends its entries. -/
def scatterVector {n : Nat} (F : Vector α n) (c : Contribution α) :
    Except (Failure α) (Vector α n) := do
  if c.entries.shape = [c.map.length] then
    return SystemVector.scatter F (← c.positions n) c.entries.entries
  else .error (.malformed (.elementVector c.entries.shape c.map.length))

/-- The matrix with an element matrix added where a map sends its entries. -/
def scatterMatrix {n : Nat} (K : Square n α) (c : Contribution α) :
    Except (Failure α) (Square n α) := do
  if c.entries.shape = [c.map.length, c.map.length] then
    return Square.scatter K (← c.positions n) (← c.entries.rows)
  else .error (.malformed (.elementMatrix c.entries.shape c.map.length))

/-- The sum of element vectors, each scattered by its map. -/
def assembleVector (n : Nat) (contributions : List (Contribution α)) :
    Except (Failure α) (Vector α n) :=
  contributions.foldlM scatterVector SystemVector.zero

/-- The sum of element matrices, each scattered by its map. -/
def assembleMatrix (n : Nat) (contributions : List (Contribution α)) :
    Except (Failure α) (Square n α) :=
  contributions.foldlM scatterMatrix Square.zero

/-- The system vector with a nodal load added. A load is a list of components. -/
def addNodalLoad {n : Nat} (l : Layout) (node : Int) (load : Grid α) (F : Vector α n) :
    Except (Failure α) (Vector α n) :=
  match load.shape with
  | [] => .error (.fault .notAList)
  | [_] => Corotation.addNodalLoad l node load.entries F
  | _ => .error (.fault .shape)

/-! ## The linear solve -/

/-- The answer of a linear solve: displacements, reactions and the free
components. -/
structure LinearAnswer (α : Type) where
  /-- The displacements, zero at the fixed components. -/
  displacement : List α
  /-- The reactions. -/
  reaction : List α
  /-- The free components, in order. -/
  free : List Nat

/-- The entries at the given positions, if all of them are there. -/
def entriesAt {β : Type} (xs : List β) (positions : List Nat) : Except (Failure α) (List β) :=
  positions.mapM fun i =>
    match xs[i]? with
    | some x => .ok x
    | none => .error (.fault .indexRange)

/-- The vector with so many of the first entries of a list, zero where there are
none. -/
def padded (n : Nat) (xs : List α) : Vector α n := .ofFn fun i => xs.getD i 0

/-- The displacements for a right side, zero at the fixed components, with the
reactions. The right side may be longer than the system, or shorter where the
missing components are fixed, as long as the reactions can be formed. -/
def solve [Conditioned α] (K F : Grid α) (fixed : List Int) (limit : α) :
    Except (Failure α) (LinearAnswer α) := do
  match K.shape, K.rows? with
  | [m, n], some rows =>
    let free := freeComponents m fixed
    let positions : List Nat := free.map Fin.val
    let block ← (← entriesAt rows positions).mapM fun row => entriesAt row positions
    checkCondition block limit
    let _ ← entriesAt (← F.vector) positions
    if n ≠ m then .error (.fault .shape)
    let square : Square m α := .ofFn fun i => padded m (rows.getD i [])
    let answer ← solveLinear square (padded m F.entries) fixed limit
    let forces := (square.apply answer.displacement).toList
    let reaction ← Grid.zipWith (· - ·) (.ofList forces) F
    return ⟨answer.displacement.toList, reaction.entries, positions⟩
  | [], _ | [_], _ => .error (.fault .indexRange)
  | _, _ => .error (.fault .shape)

/-! ## Newton's method -/

/-- The model with resisting forces `K d + c d³`, componentwise in the cube, and
without a state of its own. -/
def cubicModel {n : Nat} (K : Square n α) (c : Vector α n) (hooks : Bool) : Model Unit n α where
  respond d s :=
    let cube := Vector.zipWith (fun c x => c * (x * x * x)) c d
    let slope := Vector.zipWith (fun c x => 3 * c * (x * x)) c d
    let tangent : Square n α :=
      .ofFn fun i => .ofFn fun j =>
        if i = j then (K.get i).get j + slope.get i else (K.get i).get j
    .ok s ⟨tangent, SystemVector.add (K.apply d) cube⟩
  commit? := if hooks then some fun s => .ok s () else none
  revert? := if hooks then some fun s => .ok s () else none

/-- The model whose evaluation is refused. -/
def misshapenModel (n : Nat) : Model Unit n α where
  respond _ s := .fail s (.fault .shape)
  commit? := none
  revert? := none

/-- The model of several equations for one unknown, which repeat each other while
nothing is displaced: the tangent is singular there. -/
def repeatedModel {n : Nat} (k : α) (hooks : Bool) : Model Unit n α where
  respond _ s := .ok s ⟨.replicate n (.replicate n (k - k)), SystemVector.zero⟩
  commit? := if hooks then some fun s => .ok s () else none
  revert? := if hooks then some fun s => .ok s () else none

/-- The rows of a matrix, a vector being a matrix with one row. -/
def rowsOf (K : Grid α) : List (List α) :=
  match K.shape with
  | [_] => [K.entries]
  | _ => K.rows?.getD []

/-- The cubic model of supplied data. A single row stands for every row, and a
single number for every coefficient of the cube. -/
def suppliedModel (n : Nat) (K c : Grid α) (hooks : Bool) : Model Unit n α :=
  let rows := rowsOf K
  if rows.all (·.length = n) && (rows.length = n || rows.length = 1) then
    let row (i : Fin n) : List α := rows.getD (if rows.length = 1 then 0 else i) []
    let square : Square n α := .ofFn fun i => padded n (row i)
    match c.entries with
    | [x] => cubicModel square (.replicate n x) hooks
    | xs =>
      if c.shape = [n] then cubicModel square (padded n xs) hooks
      else if n = 1 && c.shape.length = 1 then repeatedModel (rows.flatten.headD 0) hooks
      else misshapenModel n
  else misshapenModel n

end Supplied

end Corotation
