/-!
# Decimals — numbers in double precision as decimal digits

A finite number in double precision is a fraction whose denominator is a power
of two, and all conversions to digits are done on that fraction in whole-number
arithmetic. `roundAt` gives the nearest multiple of a power of ten, a tie going
to the even multiple; `shortest` gives the fewest digits that are read back as
the same number, and among those the nearest.
-/

namespace Corotation

/-- A power of ten. -/
def tenTo (k : Nat) : Nat := Nat.pow 10 k

/-- A power of two. -/
def twoTo (k : Nat) : Nat := Nat.pow 2 k

/-- A nonnegative fraction. -/
structure Fraction where
  /-- The numerator. -/
  num : Nat
  /-- The denominator. -/
  den : Nat
deriving Repr, DecidableEq

namespace Fraction

/-- The nearest whole number, a tie going to the even one. -/
def round (q : Fraction) : Nat :=
  let floor := q.num / q.den
  let rest := 2 * (q.num % q.den)
  if rest < q.den then floor
  else if q.den < rest then floor + 1
  else if floor % 2 = 0 then floor else floor + 1

/-- The fraction divided by a power of ten. -/
def shift (q : Fraction) (k : Int) : Fraction :=
  if 0 ≤ k then ⟨q.num, q.den * tenTo k.toNat⟩ else ⟨q.num * tenTo (-k).toNat, q.den⟩

/-- The first fraction is at most the second. -/
def le (p q : Fraction) : Bool := p.num * q.den ≤ q.num * p.den

/-- The first fraction is less than the second. -/
def lt (p q : Fraction) : Bool := p.num * q.den < q.num * p.den

/-- The whole number `n` times a power of ten. -/
def ofDecimal (n : Nat) (k : Int) : Fraction :=
  if 0 ≤ k then ⟨n * tenTo k.toNat, 1⟩ else ⟨n, tenTo (-k).toNat⟩

/-- The distance of two fractions. -/
def distance (p q : Fraction) : Fraction :=
  let a := p.num * q.den
  let b := q.num * p.den
  ⟨a - b + (b - a), p.den * q.den⟩

/-- The exponent of the first digit of a positive fraction: it is at least ten
to this power and less than ten to the next. The number of digits of numerator
and denominator leaves two candidates. -/
def leadingExponent (q : Fraction) : Int :=
  let digits (n : Nat) : Int := (Nat.toDigits 10 n).length
  let guess := digits q.num - digits q.den
  if le (ofDecimal 1 guess) q then guess else guess - 1

end Fraction

/-- A decimal number: the sign, and digits as a whole number times a power of
ten. -/
structure Decimal where
  /-- The number is negative, or a negative zero. -/
  negative : Bool
  /-- The digits. -/
  digits : Nat
  /-- The exponent of the last digit. -/
  exponent : Int
deriving Repr, DecidableEq

/-- A finite number in double precision: its sign, its significand, and the
exponent of two. -/
structure Binary where
  /-- The sign bit. -/
  negative : Bool
  /-- The significand. -/
  significand : Nat
  /-- The exponent of two of the significand. -/
  exponent : Int
deriving Repr, DecidableEq

namespace Binary

/-- The parts of a number, unless it is infinite or not a number. -/
def ofFloat? (x : Float) : Option Binary :=
  let bits : Nat := x.toBits.toNat
  let negative : Bool := decide (bits / twoTo 63 = 1)
  let biased : Nat := bits / twoTo 52 % 2048
  let low : Nat := bits % twoTo 52
  if biased = 2047 then none
  else if biased = 0 then some ⟨negative, low, -1074⟩
  else some ⟨negative, low + twoTo 52, (biased : Int) - 1075⟩

/-- A multiple of a power of two. -/
def scaled (n : Nat) (e : Int) : Fraction :=
  if 0 ≤ e then ⟨n * twoTo e.toNat, 1⟩ else ⟨n, twoTo (-e).toNat⟩

/-- The magnitude as a fraction. -/
def fraction (b : Binary) : Fraction := scaled b.significand b.exponent

/-- The whole part. -/
def truncate (b : Binary) : Int :=
  let n := b.fraction.num / b.fraction.den
  if b.negative then -n else n

/-- The lower end of the interval of numbers that are read as this one. Below a
power of two the neighbour is only half as far. -/
def lower (b : Binary) : Fraction :=
  if b.significand = twoTo 52 ∧ -1074 < b.exponent then
    scaled (4 * b.significand - 1) (b.exponent - 2)
  else scaled (4 * b.significand - 2) (b.exponent - 2)

/-- The upper end of the interval of numbers that are read as this one. -/
def upper (b : Binary) : Fraction := scaled (4 * b.significand + 2) (b.exponent - 2)

/-- A fraction that is read as this number: inside the interval, or at an end of
it where the significand is even. -/
def reads (b : Binary) (q : Fraction) : Bool :=
  if b.significand % 2 = 0 then Fraction.le b.lower q && Fraction.le q b.upper
  else Fraction.lt b.lower q && Fraction.lt q b.upper

/-- The multiple of `10 ^ k` next to the number that is read back as it; of two
the nearer, in a tie the even one. -/
def onGrid? (b : Binary) (k : Int) : Option Nat :=
  let value := b.fraction
  let q := value.shift k
  let below := q.num / q.den
  let above := below + 1
  let fits (n : Nat) : Bool := b.reads (.ofDecimal n k)
  match fits below, fits above with
  | true, false => some below
  | false, true => some above
  | false, false => none
  | true, true => some q.round

/-- The first grid, from the coarsest of those left, with a point that is read
back as the number. -/
def searchGrid (b : Binary) : (fuel : Nat) → (k : Int) → Nat × Int
  | 0, k => ((b.fraction.shift k).round, k)
  | fuel + 1, k =>
    match b.onGrid? k with
    | some n => (n, k)
    | none => searchGrid b fuel (k - 1)

end Binary

namespace Decimal

/-- A whole number without zeros at the end, with the exponent of ten that
makes up for them. -/
def dropZeros (n : Nat) (k : Int) : Nat × Int :=
  if h : n ≠ 0 ∧ n % 10 = 0 then dropZeros (n / 10) (k + 1) else (n, k)
termination_by n
decreasing_by omega

/-- The decimal without zeros at the end of its digits. -/
def strip (d : Decimal) : Decimal :=
  let (digits, exponent) := dropZeros d.digits d.exponent
  { d with digits, exponent }

/-- The digits as characters. -/
def digitText (d : Decimal) : String := toString d.digits

/-- The exponent of the first digit. -/
def leading (d : Decimal) : Int := d.exponent + d.digitText.length - 1

/-- The multiple of `10 ^ k` nearest to a number, a tie going to the even
multiple. -/
def roundAt (b : Binary) (k : Int) : Decimal := ⟨b.negative, (b.fraction.shift k).round, k⟩

/-- The number rounded to so many significant digits. -/
def roundSignificant (b : Binary) (count : Nat) : Decimal :=
  if b.significand = 0 then ⟨b.negative, 0, 0⟩
  else
    let k := b.fraction.leadingExponent - count + 1
    let d := roundAt b k
    if d.digits = tenTo count then ⟨b.negative, tenTo (count - 1), k + 1⟩ else d

/-- The fewest digits that are read back as the number, and among those the
nearest. Seventeen digits are always enough. -/
def shortest (b : Binary) : Decimal :=
  if b.significand = 0 then ⟨b.negative, 0, 0⟩
  else
    let (n, k) := b.searchGrid 16 b.fraction.leadingExponent
    strip ⟨b.negative, n, k⟩

/-- The number in double precision nearest to a decimal. -/
def toFloat (d : Decimal) : Float :=
  let x :=
    if 0 ≤ d.exponent then Float.ofScientific (d.digits * tenTo d.exponent.toNat) false 0
    else Float.ofScientific d.digits true (-d.exponent).toNat
  if d.negative then -x else x

end Decimal

end Corotation
