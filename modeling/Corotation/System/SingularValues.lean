import Corotation.Scalar.Binary64
import Corotation.System.Condition

/-!
# Singular values in double precision

The columns of a matrix are turned against each other, two at a time, until they
are orthogonal. Their lengths are then the singular values. The matrix is first
divided by a power of two about as large as its largest entry, which keeps the
squares in range and changes no ratio.

A matrix with orthogonal columns, a diagonal one for instance, is not turned at
all, so its condition number is as exact as the lengths and their quotient.
-/

namespace Corotation

namespace SingularValues

/-- The scalar product of two columns. -/
def dot (a b : FloatArray) : Float :=
  Nat.fold a.size (fun i _ s => s + a.get! i * b.get! i) 0

/-- The sum of multiples of two columns. -/
def combine (s t : Float) (a b : FloatArray) : FloatArray :=
  Nat.fold a.size (fun i _ c => c.push (s * a.get! i + t * b.get! i)) (.emptyWithCapacity a.size)

/-- The length of a column, whose squares are kept in range by a division. -/
def length (a : FloatArray) : Float :=
  let size := Nat.fold a.size (fun i _ m => max m (a.get! i).abs) 0
  if size ≤ 0 then 0 else
    size * (Nat.fold a.size (fun i _ s => s + (a.get! i / size) * (a.get! i / size)) 0).sqrt

/-- The relative size of a scalar product below which two columns count as
orthogonal. -/
def negligible : Float := Float.scaleB 1 (-52)

/-- The smaller of the two turns in the plane of two columns that make them
orthogonal, as cosine and sine, unless they are already. -/
def turn? (a b : FloatArray) : Option (Float × Float) :=
  let mixed := dot a b
  let aa := dot a a
  let bb := dot b b
  if mixed.abs ≤ negligible * (aa.sqrt * bb.sqrt) then none
  else
    let ratio := (bb - aa) / (2 * mixed)
    let tangent := (if ratio < 0 then -1 else 1) / (ratio.abs + (1 + ratio * ratio).sqrt)
    let cosine := 1 / (1 + tangent * tangent).sqrt
    some (cosine, cosine * tangent)

/-- Two columns of a matrix turned against each other. Nothing is done when they
are orthogonal, which the flag records. -/
def turnPair (i j : Nat) (state : Array FloatArray × Bool) : Array FloatArray × Bool :=
  let (columns, still) := state
  match columns[i]?, columns[j]? with
  | some a, some b =>
    match turn? a b with
    | none => (columns, still)
    | some (c, s) =>
      ((columns.setIfInBounds i (combine c (-s) a b)).setIfInBounds j (combine s c a b), false)
  | _, _ => (columns, still)

/-- Every pair of columns turned once, with a flag that says whether all were
orthogonal already. -/
def sweep (columns : Array FloatArray) : Array FloatArray × Bool :=
  Nat.fold columns.size
    (fun j _ state => Nat.fold j (fun i _ state => turnPair i j state) state) (columns, true)

/-- Sweeps up to one that finds all columns orthogonal, but not more than so
many. -/
def orthogonalize : Nat → Array FloatArray → Array FloatArray
  | 0, columns => columns
  | fuel + 1, columns =>
    match sweep columns with
    | (columns, true) => columns
    | (columns, false) => orthogonalize fuel columns

/-- The largest magnitude of an entry. -/
def largestEntry (rows : List (List Float)) : Float :=
  rows.foldl (fun m row => row.foldl (fun m x => max m x.abs) m) 0

/-- The quotient of the largest and the smallest length. -/
def quotient (lengths : List Float) : Condition Float :=
  match lengths with
  | [] => .undefined
  | x :: xs =>
    let number := xs.foldl max x / xs.foldl min x
    if number.isFinite then .finite number else .infinite

/-- The condition number of a square matrix given by its rows. -/
def condition (rows : List (List Float)) : Condition Float :=
  if rows.isEmpty || rows.any (·.any Float.isNaN) then .undefined
  else
    let size := largestEntry rows
    if size.isFinite && 0 < size then
      let shift := -size.frExp.2
      let columns : List FloatArray := (List.range rows.length).map fun j =>
        ⟨(rows.map fun row => (row.getD j 0).scaleB shift).toArray⟩
      quotient ((orthogonalize 40 columns.toArray).toList.map length)
    else .infinite

end SingularValues

/-- The condition number of a matrix in double precision. -/
instance : Conditioned Float := ⟨SingularValues.condition⟩

end Corotation
