import Corotation.Text.Decimal

/-!
# Shared precision

The entries of an array are written with one absolute step for all of them: a
power of ten that leaves the largest entry so many significant digits, but never
less than a given floor. So what is noise beside the largest entry is written as
zero.
-/

namespace Corotation

/-- How precisely the entries of an array are written. -/
structure Precision where
  /-- The significant digits of the largest entry. -/
  digits : Nat
  /-- The least exponent of the step. -/
  floor : Int
deriving Repr, DecidableEq

namespace Precision

/-- The exponent of the first digit of a positive number. A number below a power
of ten by less than a part in a billion counts as that power. -/
def magnitude (x : Float) : Int :=
  let e := (x.log10 + 1e-9).floor
  if e < 0 then -(e.abs.toUInt64.toNat : Int) else e.toUInt64.toNat

/-- The larger of a number and the greatest one so far. -/
def greater (sofar : Option Float) (x : Float) : Option Float :=
  match sofar with
  | none => some x
  | some y => some (if y < x then x else y)

/-- The largest magnitude among the finite entries that are not zero. -/
def largest (entries : List Float) : Option Float :=
  ((entries.filter fun x : Float => x.isFinite && x != 0).map Float.abs).foldl greater none

/-- The exponent of the step for an array. -/
def step (p : Precision) (entries : List Float) : Int :=
  let e : Int := ((largest entries).map magnitude).getD 0
  max (e - p.digits + 1) p.floor

/-- An entry as a multiple of a power of ten, zero being written without sign. A
value that is infinite or not a number has no digits. -/
def entry? (step : Int) (x : Float) : Option Decimal :=
  (Binary.ofFloat? x).map fun b =>
    let d := Decimal.roundAt b step
    if d.digits = 0 then ⟨false, 0, 0⟩ else d

end Precision

end Corotation
