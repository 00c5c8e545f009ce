/-!
# Tables

A table is written with commas between the fields of a row and a carriage return
with a line feed after each. A field that holds a comma, a quote or a line break
is put in quotes, and the quotes inside it are doubled.
-/

namespace Corotation

namespace Table

/-- A character that makes quotes necessary. -/
def isSpecial (c : Char) : Bool := c = ',' || c = '"' || c = '\n' || c = '\r'

/-- The characters of a field with every quote doubled. -/
def doubled : List Char → List Char
  | [] => []
  | c :: rest => if c = '"' then '"' :: '"' :: doubled rest else c :: doubled rest

/-- A field of a row that has others. -/
def field (s : String) : String :=
  if s.toList.any isSpecial then "\"" ++ String.ofList (doubled s.toList) ++ "\"" else s

/-- A row of more than one field. -/
def row (fields : List String) : String := ",".intercalate (fields.map field) ++ "\r\n"

/-- A table of rows. -/
def text (rows : List (List String)) : String := String.join (rows.map row)

end Table

end Corotation
