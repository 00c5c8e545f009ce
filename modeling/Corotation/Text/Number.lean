import Corotation.Text.Decimal

/-!
# Number texts

The ways in which a number in double precision is written:

* `shortest`: the fewest digits that are read back, positional from `0.0001` up
  to below `1e16` with at least one decimal, otherwise with an exponent of at
  least two digits;
* `general n`: at most `n` significant digits without zeros at the end,
  positional from `0.0001` up to below ten to the power `n`;
* `scientific n`: one digit, `n` decimals and an exponent of at least two digits;
* `fixed n`: positional with `n` decimals.

Rounding is to the nearest, a tie going to the even digit. An infinite value is
`inf`, and one that is not a number is `nan`.
-/

namespace Corotation

namespace Number

/-- The text of a value that is infinite or not a number. -/
def nonFinite (x : Float) : String :=
  if x.isNaN then "nan" else if x < 0 then "-inf" else "inf"

/-- The sign of a decimal. -/
def sign (d : Decimal) : String := if d.negative then "-" else ""

/-- So many zeros. -/
def zeros (n : Nat) : String := String.ofList (List.replicate n '0')

/-- The digits with the point where the exponent puts it, without sign. The
whole part has at least one digit. -/
def positional (d : Decimal) : String × String :=
  let digits := d.digitText
  if 0 ≤ d.exponent then (digits ++ zeros d.exponent.toNat, "")
  else
    let places := (-d.exponent).toNat
    let padded := (zeros (places + 1 - digits.length) ++ digits).toList
    let whole := padded.length - places
    (String.ofList (padded.take whole), String.ofList (padded.drop whole))

/-- The exponent with its sign and at least two digits. -/
def exponentText (e : Int) : String :=
  let digits := toString e.natAbs
  (if e < 0 then "e-" else "e+") ++ zeros (2 - digits.length) ++ digits

/-- The digits with a point after the first and the exponent, without sign. -/
def withExponent (d : Decimal) : String :=
  let digits := d.digitText.toList
  let decimals := digits.drop 1
  String.ofList (digits.take 1)
    ++ (if decimals.isEmpty then "" else "." ++ String.ofList decimals)
    ++ exponentText d.leading

/-- Whole part and decimals with a point between them, unless there are no
decimals. -/
def joined (parts : String × String) : String :=
  if parts.2.isEmpty then parts.1 else parts.1 ++ "." ++ parts.2

/-- The fewest digits that are read back as the number. -/
def shortest (x : Float) : String :=
  match Binary.ofFloat? x with
  | none => nonFinite x
  | some b =>
    let d := Decimal.shortest b
    let e := d.leading
    sign d ++
      if d.digits = 0 then "0.0"
      else if -4 ≤ e ∧ e < 16 then
        let parts := positional d
        joined (parts.1, if parts.2.isEmpty then "0" else parts.2)
      else withExponent d

/-- At most so many significant digits. -/
def general (count : Nat) (x : Float) : String :=
  match Binary.ofFloat? x with
  | none => nonFinite x
  | some b =>
    let d := (Decimal.roundSignificant b count).strip
    let e := d.leading
    sign d ++
      if d.digits = 0 then "0"
      else if -4 ≤ e ∧ e < count then joined (positional d) else withExponent d

/-- One digit, so many decimals, and an exponent. -/
def scientific (places : Nat) (x : Float) : String :=
  match Binary.ofFloat? x with
  | none => nonFinite x
  | some b =>
    let d := Decimal.roundSignificant b (places + 1)
    sign d ++
      if d.digits = 0 then joined ("0", zeros places) ++ exponentText 0 else withExponent d

/-- Positional with so many decimals. -/
def fixed (places : Nat) (x : Float) : String :=
  match Binary.ofFloat? x with
  | none => nonFinite x
  | some b =>
    let d := Decimal.roundAt b (-(places : Int))
    sign d ++ joined (positional d)

/-- The number rounded to so many decimals. -/
def rounded (places : Nat) (x : Float) : Float :=
  match Binary.ofFloat? x with
  | none => x
  | some b => (Decimal.roundAt b (-(places : Int))).toFloat

end Number

end Corotation
