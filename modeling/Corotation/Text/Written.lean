import Corotation.Text.Document
import Corotation.Text.Number
import Corotation.Text.Printable

/-!
# Documents as text

A document is written as JSON, on one line (`compact`) or with every member and
item on a line of its own (`indented`). All characters beyond printable ASCII are
escaped, those beyond the basic plane as a pair of surrogates.

A label is written plainly in messages and tables (`plain`): a text as it is,
and other data in the notation of literals, where a text inside a list is quoted
and what is not printable in it is escaped.
-/

namespace Corotation

namespace Document

/-! ## JSON -/

/-- Four hexadecimal digits. -/
def hex4 (n : Nat) : String :=
  let digit (k : Nat) : Char := (Nat.toDigits 16 (n / Nat.pow 16 k % 16)).headD '0'
  String.ofList [digit 3, digit 2, digit 1, digit 0]

/-- A character inside a JSON text. -/
def escapeChar (c : Char) : String :=
  if c = '"' then "\\\""
  else if c = '\\' then "\\\\"
  else if c = '\n' then "\\n"
  else if c = '\r' then "\\r"
  else if c = '\t' then "\\t"
  else if c = '\x08' then "\\b"
  else if c = '\x0c' then "\\f"
  else if ' ' ≤ c ∧ c ≤ '~' then c.toString
  else if c.toNat < 0x10000 then "\\u" ++ hex4 c.toNat
  else
    let n := c.toNat - 0x10000
    "\\u" ++ hex4 (0xd800 + n / 1024) ++ "\\u" ++ hex4 (0xdc00 + n % 1024)

/-- A text in quotes. -/
def quoted (s : String) : String :=
  "\"" ++ String.join (s.toList.map escapeChar) ++ "\""

/-- A number in double precision. -/
def realText (x : Float) : String :=
  if x.isNaN then "NaN"
  else if x.isFinite then Number.shortest x
  else if x < 0 then "-Infinity" else "Infinity"

mutual

/-- The document on one line. -/
def compact : Document → String
  | .null => "null"
  | .bool b => if b then "true" else "false"
  | .int n => toString n
  | .real x => realText x
  | .text s => quoted s
  | .list items => "[" ++ ",".intercalate (compactItems items) ++ "]"
  | .object members => "\x7b" ++ ",".intercalate (compactMembers members) ++ "\x7d"

/-- Items on one line. -/
def compactItems : List Document → List String
  | [] => []
  | d :: rest => compact d :: compactItems rest

/-- Members on one line. -/
def compactMembers : List (String × Document) → List String
  | [] => []
  | (name, d) :: rest => (quoted name ++ ":" ++ compact d) :: compactMembers rest

end

/-- Lines between brackets, each with its indentation, or nothing between them. -/
def bracketed (opening closing : String) (depth : Nat) (lines : List String) : String :=
  if lines.isEmpty then opening ++ closing
  else
    let blank (n : Nat) : String := String.ofList (List.replicate n ' ')
    let inner := "\n" ++ blank (2 * depth + 2)
    opening ++ inner ++ ("," ++ inner).intercalate lines ++ "\n" ++ blank (2 * depth) ++ closing

mutual

/-- The document at a depth of indentation, two blanks for each. -/
def indentedAt (depth : Nat) : Document → String
  | .list items => bracketed "[" "]" depth (indentedItems (depth + 1) items)
  | .object members => bracketed "\x7b" "\x7d" depth (indentedMembers (depth + 1) members)
  | .null => "null"
  | .bool b => if b then "true" else "false"
  | .int n => toString n
  | .real x => realText x
  | .text s => quoted s

/-- Items at a depth. -/
def indentedItems (depth : Nat) : List Document → List String
  | [] => []
  | d :: rest => indentedAt depth d :: indentedItems depth rest

/-- Members at a depth. -/
def indentedMembers (depth : Nat) : List (String × Document) → List String
  | [] => []
  | (name, d) :: rest => (quoted name ++ ": " ++ indentedAt depth d) :: indentedMembers depth rest

end

/-- The document with every member and item on a line of its own. -/
def indented (d : Document) : String := indentedAt 0 d

/-! ## Literals -/

/-- A character of a text literal in the given quotes. One that is not printable
is given by its code point in two, four or eight hexadecimal digits. -/
def literalChar (quote : Char) (c : Char) : String :=
  let n := c.toNat
  let hex (width : Nat) : String :=
    let digits := Nat.toDigits 16 n
    Number.zeros (width - digits.length) ++ String.ofList digits
  if c = quote ∨ c = '\\' then "\\" ++ c.toString
  else if c = '\n' then "\\n"
  else if c = '\r' then "\\r"
  else if c = '\t' then "\\t"
  else if isPrintable c then c.toString
  else if n < 0x100 then "\\x" ++ hex 2
  else if n < 0x10000 then "\\u" ++ hex 4
  else "\\U" ++ hex 8

/-- A text literal: in single quotes, unless the text has a single quote and no
double one. -/
def literalText (s : String) : String :=
  let quote : Char := if s.toList.contains '\'' && !s.toList.contains '"' then '"' else '\''
  quote.toString ++ String.join (s.toList.map (literalChar quote)) ++ quote.toString

mutual

/-- The document in the notation of literals. -/
def literal : Document → String
  | .null => "None"
  | .bool b => if b then "True" else "False"
  | .int n => toString n
  | .real x => Number.shortest x
  | .text s => literalText s
  | .list items => "[" ++ ", ".intercalate (literalItems items) ++ "]"
  | .object members => "\x7b" ++ ", ".intercalate (literalMembers members) ++ "\x7d"

/-- Items in the notation of literals. -/
def literalItems : List Document → List String
  | [] => []
  | d :: rest => literal d :: literalItems rest

/-- Members in the notation of literals. -/
def literalMembers : List (String × Document) → List String
  | [] => []
  | (name, d) :: rest => (literalText name ++ ": " ++ literal d) :: literalMembers rest

end

/-- The document as a label: a text as it is, other data as literals. -/
def plain : Document → String
  | .text s => s
  | d => literal d

end Document

end Corotation
