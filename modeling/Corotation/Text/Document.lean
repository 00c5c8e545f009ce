/-!
# Documents — structured data

A document is what a JSON text holds: nothing, a truth value, a number, a text,
a list or an object whose members keep their order. A whole number and a number
in double precision are different documents even where they are equal, since
they are written differently.

A label names an element, a node or a transformation in messages and records.
Any document can serve as one.
-/

namespace Corotation

/-- A structured datum. -/
inductive Document where
  /-- Nothing. -/
  | null
  /-- A truth value. -/
  | bool (b : Bool)
  /-- A whole number. -/
  | int (n : Int)
  /-- A number in double precision. -/
  | real (x : Float)
  /-- A text. -/
  | text (s : String)
  /-- A list. -/
  | list (items : List Document)
  /-- An object: members in order, each a name with its value. -/
  | object (members : List (String × Document))
deriving Inhabited, Repr

/-- A name given to an element, a node or a transformation. -/
abbrev Label := Document

namespace Document

/-- The member of an object, when the document is one and has it. The last
member of a repeated name counts. -/
def get? (d : Document) (name : String) : Option Document :=
  match d with
  | .object members => (members.reverse.find? (·.1 == name)).map (·.2)
  | _ => none

end Document

end Corotation
