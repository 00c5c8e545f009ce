import Corotation.Scalar.Binary64
import Corotation.Text.Table
import Corotation.Text.Written
import Corotation.Transformation.Basic

/-!
# Descriptions of transformations

What a transformation is made from as a record, and as text for people, and the
deformation states of several transformations as a table.
-/

namespace Corotation

/-- The word for a stage. -/
def Stage.word : Stage → String
  | .uninitialized => "uninitialized"
  | .initialized => "initialized"
  | .current => "current"

/-- The word for the state of the capture. -/
def Capture.word : Capture → String
  | .unchecked => "unchecked"
  | .none => "none"
  | .captured => "captured"

/-- A vector as a list of numbers. -/
def Vec3.document (v : Vec3 Float) : Document := .list (v.toList.map .real)

/-- A vector as a line of numbers with at most six significant digits. -/
def Vec3.line (v : Vec3 Float) : String := " ".intercalate (v.toList.map (Number.general 6))

namespace Configuration

/-- The word for the kind of transformation. -/
def kind : String := "EuclidFrameTransform"

/-- The record of a configuration. Offsets and the way they are read are left
out where there are none. -/
def record (c : Configuration Float) : Document :=
  let offsets : List (String × Document) :=
    match c.offsets with
    | none => []
    | some o =>
      [("offsets", .list (o.toList.map Vec3.document)), ("offset_flags", .int c.flags.bits)]
  .object ([("name", c.tag), ("type", .text kind), ("vecxz", c.vecxz.document)] ++ offsets)

/-- A configuration in words, a line for the reference vector and one for each
offset. -/
def describe (c : Configuration Float) : String :=
  let offsets : List String :=
    match c.offsets with
    | none => []
    | some o => ["  offset 0: " ++ o.i.line, "  offset 1: " ++ o.j.line]
  "\n".intercalate ([kind ++ " " ++ c.tag.plain, "  vecxz: " ++ c.vecxz.line] ++ offsets)

end Configuration

namespace Transformation

variable {ν : Type}

/-- The name and stage of a transformation in a word. -/
def brief (t : Transformation ν Float) : String :=
  Configuration.kind ++ "(tag=" ++ t.tag.plain ++ ", state=" ++ t.stage.word ++ ")"

/-- A transformation in words: its configuration and its two lengths. -/
def describe (t : Transformation ν Float) : String :=
  "\n".intercalate
    [t.config.describe, "  L  = " ++ Number.general 6 t.reference.length,
      "  Ln = " ++ Number.general 6 t.deformedLength]

/-- The deformation state of a transformation as a row of a table. A tag that is
nothing leaves its field empty. -/
def stateRow (t : Transformation ν Float) : List String :=
  let rounded (places : Nat) (x : Float) : String := Number.shortest (Number.rounded places x)
  let tag := match t.tag with
    | .null => ""
    | tag => tag.plain
  [tag, rounded 6 t.reference.length, rounded 6 t.deformedLength,
    rounded 9 (ElementVector.axial t.deformation), rounded 9 t.deformation.i.rot.norm,
    rounded 9 t.deformation.j.rot.norm, t.stage.word]

end Transformation

/-! ## Several transformations -/

/-- The configurations of transformations as one document. -/
def recordAll (configs : List (Configuration Float)) : Document :=
  .object
    [("version", .text "1.0"), ("type", .text "frame_transforms"),
      ("transforms", .list (configs.map Configuration.record))]

/-- The deformation states of transformations as a table. -/
def stateTable {ν : Type} (ts : List (Transformation ν Float)) : String :=
  Table.text
    (["tag", "L", "Ln", "axial_deformation", "rotation_I", "rotation_J", "state"]
      :: ts.map Transformation.stateRow)

/-- Transformations in words, a blank line between them. -/
def describeAll {ν : Type} (ts : List (Transformation ν Float)) : String :=
  "\n\n".intercalate (ts.map Transformation.describe)

end Corotation
