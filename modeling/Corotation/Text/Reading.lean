import Corotation.Text.Decimal
import Corotation.Text.Document

/-!
# Reading documents

A JSON text is read as a document. A number with a point or an exponent is one
in double precision, correctly rounded; any other number is whole and has no
limit. An escaped pair of surrogates is one character, and a surrogate without
its partner becomes the replacement character.
-/

namespace Corotation

namespace Document

namespace Reading

/-- The text after its leading blanks. -/
def skipBlanks (cs : List Char) : List Char :=
  cs.dropWhile fun c => c = ' ' || c = '\n' || c = '\r' || c = '\t'

/-- The value of a digit. -/
def digitValue (c : Char) : Nat := c.toNat - '0'.toNat

/-- The value of decimal digits. -/
def decimalValue (cs : List Char) : Nat := cs.foldl (fun n c => 10 * n + digitValue c) 0

/-- The value of a hexadecimal digit. -/
def hexValue? (c : Char) : Option Nat :=
  if c.isDigit then some (digitValue c)
  else if 'a' ≤ c ∧ c ≤ 'f' then some (c.toNat - 'a'.toNat + 10)
  else if 'A' ≤ c ∧ c ≤ 'F' then some (c.toNat - 'A'.toNat + 10)
  else none

/-- The code unit of four hexadecimal digits. -/
def unit? (a b c d : Char) : Option Nat := do
  return (((← hexValue? a) * 16 + (← hexValue? b)) * 16 + (← hexValue? c)) * 16 + (← hexValue? d)

/-- The character that an escape letter stands for. -/
def escaped? : Char → Option Char
  | '"' => some '"'
  | '\\' => some '\\'
  | '/' => some '/'
  | 'b' => some '\x08'
  | 'f' => some '\x0c'
  | 'n' => some '\n'
  | 'r' => some '\r'
  | 't' => some '\t'
  | _ => none

/-- The code units up to the closing quote, and what comes after it. -/
def units : List Char → Option (List Nat × List Char)
  | [] => none
  | '"' :: rest => some ([], rest)
  | '\\' :: 'u' :: a :: b :: c :: d :: rest => do
    let n ← unit? a b c d
    let (ns, rest) ← units rest
    return (n :: ns, rest)
  | '\\' :: c :: rest => do
    let e ← escaped? c
    let (ns, rest) ← units rest
    return (e.toNat :: ns, rest)
  | c :: rest => do
    let (ns, rest) ← units rest
    return (c.toNat :: ns, rest)

/-- The first unit of a pair of surrogates. -/
def isHigh (n : Nat) : Bool := 0xd800 ≤ n && n < 0xdc00

/-- The second unit of a pair of surrogates. -/
def isLow (n : Nat) : Bool := 0xdc00 ≤ n && n < 0xe000

/-- The character of a code unit that is not half of a pair. -/
def single (n : Nat) : Char := if isHigh n || isLow n then '\ufffd' else Char.ofNat n

/-- The characters of code units, pairs of surrogates being joined. -/
def characters : List Nat → List Char
  | [] => []
  | [n] => [single n]
  | m :: n :: rest =>
    if isHigh m && isLow n then
      Char.ofNat (0x10000 + (m - 0xd800) * 1024 + (n - 0xdc00)) :: characters rest
    else single m :: characters (n :: rest)

/-- A text after its opening quote. -/
def text? (cs : List Char) : Option (String × List Char) := do
  let (ns, rest) ← units cs
  return (String.ofList (characters ns), rest)

/-- A sign in front of digits. -/
def signed (cs : List Char) : Bool × List Char :=
  match cs with
  | '-' :: rest => (true, rest)
  | '+' :: rest => (false, rest)
  | _ => (false, cs)

/-- The decimals after a point, if there is one. -/
def decimals (cs : List Char) : List Char × List Char :=
  match cs with
  | '.' :: rest => (rest.takeWhile Char.isDigit, rest.dropWhile Char.isDigit)
  | _ => ([], cs)

/-- The exponent of ten, if there is one. -/
def exponent? (cs : List Char) : Option Int :=
  let value (cs : List Char) : Int :=
    let (negative, digits) := signed cs
    if negative then -(decimalValue digits : Int) else decimalValue digits
  match cs with
  | 'e' :: rest => some (value rest)
  | 'E' :: rest => some (value rest)
  | _ => none

/-- A number. -/
def number? (cs : List Char) : Option Document :=
  let (negative, body) := signed cs
  let whole := body.takeWhile Char.isDigit
  let rest := body.dropWhile Char.isDigit
  if whole.isEmpty then none
  else if rest.isEmpty then
    let n := decimalValue whole
    some (.int (if negative then -n else n))
  else
    let (places, rest) := decimals rest
    let shift : Int := (exponent? rest).getD 0 - places.length
    some (.real (Decimal.toFloat ⟨negative, decimalValue (whole ++ places), shift⟩))

/-- A word: a number, a truth value or nothing. -/
def word? (cs : List Char) : Option Document :=
  match String.ofList cs with
  | "null" => some .null
  | "true" => some (.bool true)
  | "false" => some (.bool false)
  | _ => number? cs

/-- A character that ends a word. -/
def endsWord (c : Char) : Bool :=
  c = ',' || c = ']' || c = '\x7d' || c = ' ' || c = '\n' || c = '\r' || c = '\t'

mutual

/-- The document at the beginning of a text, and what comes after it. Documents
may be nested as deep as the first argument says. -/
def document? : Nat → List Char → Option (Document × List Char)
  | 0, _ => none
  | fuel + 1, cs =>
    match skipBlanks cs with
    | '"' :: rest => do
      let (s, rest) ← text? rest
      return (.text s, rest)
    | '[' :: rest =>
      match skipBlanks rest with
      | ']' :: rest => some (.list [], rest)
      | rest => do
        let (ds, rest) ← items? fuel rest
        return (.list ds, rest)
    | '\x7b' :: rest =>
      match skipBlanks rest with
      | '\x7d' :: rest => some (.object [], rest)
      | rest => do
        let (ms, rest) ← members? fuel rest
        return (.object ms, rest)
    | cs => do
      let d ← word? (cs.takeWhile fun c => !endsWord c)
      return (d, cs.dropWhile fun c => !endsWord c)

/-- The items of a list up to its closing bracket. -/
def items? : Nat → List Char → Option (List Document × List Char)
  | 0, _ => none
  | fuel + 1, cs => do
    let (d, rest) ← document? fuel cs
    match skipBlanks rest with
    | ',' :: rest =>
      let (ds, rest) ← items? fuel rest
      return (d :: ds, rest)
    | ']' :: rest => return ([d], rest)
    | _ => none

/-- The members of an object up to its closing brace. -/
def members? : Nat → List Char → Option (List (String × Document) × List Char)
  | 0, _ => none
  | fuel + 1, cs =>
    match skipBlanks cs with
    | '"' :: rest => do
      let (name, rest) ← text? rest
      match skipBlanks rest with
      | ':' :: rest =>
        let (d, rest) ← document? fuel rest
        match skipBlanks rest with
        | ',' :: rest =>
          let (ms, rest) ← members? fuel rest
          return ((name, d) :: ms, rest)
        | '\x7d' :: rest => return ([(name, d)], rest)
        | _ => none
      | _ => none
    | _ => none

end

end Reading

/-- The document that a JSON text holds. -/
def ofText? (s : String) : Option Document :=
  match Reading.document? (s.length + 1) s.toList with
  | some (d, rest) => if (Reading.skipBlanks rest).isEmpty then some d else none
  | none => none

end Document

end Corotation
