import Corotation.Space.Matrix

/-!
# The nearest rotation

A matrix with positive determinant is `U Σ Vᵀ` with orthogonal `U` and `V`, and
`U Vᵀ` is the rotation nearest to it. The factors come from turning pairs of
columns against each other until the columns are orthogonal: the turned columns
are `U Σ`, and the turns make up `V`.

Two columns determine the rotation, the third being a vector product on either
side; the two longest are used, so that a nearly singular matrix loses nothing.
-/

namespace Corotation

open Scalar

namespace Nearest

variable {α : Type} [Scalar α]

/-- A column of the turned matrix with the matching column of the turns. -/
structure Column (α : Type) where
  /-- The turned column. -/
  image : Vec3 α
  /-- The direction it is the image of. -/
  source : Vec3 α

/-- Two columns turned in their plane so that the images become orthogonal. The
smaller of the two possible turns is taken. -/
def turn (a b : Column α) : Column α × Column α :=
  let mixed := a.image.dot b.image
  if IsZero mixed then (a, b)
  else
    let ratio := (b.image.dot b.image - a.image.dot a.image) / (2 * mixed)
    let root := magnitude ratio + sqrt (1 + ratio * ratio)
    let tangent := if ratio < 0 then -(1 / root) else 1 / root
    let cosine := 1 / sqrt (1 + tangent * tangent)
    let sine := cosine * tangent
    (⟨a.image.scale cosine - b.image.scale sine, a.source.scale cosine - b.source.scale sine⟩,
     ⟨a.image.scale sine + b.image.scale cosine, a.source.scale sine + b.source.scale cosine⟩)

/-- One turn for each of the three pairs of columns. -/
def sweep (a b c : Column α) : Column α × Column α × Column α :=
  let (a, b) := turn a b
  let (a, c) := turn a c
  let (b, c) := turn b c
  (a, b, c)

/-- A number of sweeps. -/
def sweeps : Nat → Column α → Column α → Column α → Column α × Column α × Column α
  | 0, a, b, c => (a, b, c)
  | n + 1, a, b, c =>
    let (a, b, c) := sweep a b c
    sweeps n a b c

/-- The vector divided by its length, after a division by its largest component
that keeps the squares in range. -/
def direction (v : Vec3 α) : Vec3 α :=
  let w := v.divide (larger (larger (magnitude v.x) (magnitude v.y)) (magnitude v.z))
  w.divide w.norm

/-- The rotation that takes the sources of two orthogonal columns to the
directions of their images. -/
def alignment (a b : Column α) : Mat3 α :=
  let u := direction a.image
  let v := direction (b.image - u.scale (u.dot b.image))
  Mat3.outer u a.source + Mat3.outer v b.source
    + Mat3.outer (u.cross v) (a.source.cross b.source)

/-- The alignment of the two longest of three columns, the longer first. -/
def alignLongest (a b c : Column α) : Mat3 α :=
  let p := a.image.norm
  let q := b.image.norm
  let r := c.image.norm
  let ordered (x y : Column α) (m n : α) : Mat3 α :=
    if m < n then alignment y x else alignment x y
  if r ≤ p ∧ r ≤ q then ordered a b p q
  else if q ≤ p ∧ q ≤ r then ordered a c p r
  else ordered b c q r

/-- The largest magnitude of an entry. -/
def largestEntry (m : Mat3 α) : α :=
  let row (v : Vec3 α) : α := larger (larger (magnitude v.x) (magnitude v.y)) (magnitude v.z)
  larger (larger (row m.r1) (row m.r2)) (row m.r3)

end Nearest

/-- The rotation nearest to a matrix with positive determinant. -/
def nearestRotation {α : Type} [Scalar α] (m : Mat3 α) : Mat3 α :=
  let size := Nearest.largestEntry m
  let (a, b, c) := Nearest.sweeps 16
    ⟨m.c1.divide size, ⟨1, 0, 0⟩⟩ ⟨m.c2.divide size, ⟨0, 1, 0⟩⟩ ⟨m.c3.divide size, ⟨0, 0, 1⟩⟩
  Nearest.alignLongest a b c

end Corotation
