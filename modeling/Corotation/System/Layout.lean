import Corotation.Failure

/-!
# The numbering of components

Every node carries the same number of components, so component `k` of node `n`
has the number `perNode * n + k`. The same numbering serves the vector of a
whole system, where `n` is a node of the model, and the vector of one element,
where `n` is one of its ends.

A span is a stretch of numbers. Numbers below zero count from the end of the
vector that a span is taken from, and what lies outside the vector is left out.
-/

namespace Corotation

/-- A stretch of component numbers, from `start` up to and without `stop`. -/
@[ext]
structure Span where
  /-- The first number. -/
  start : Int
  /-- The number after the last. -/
  stop : Int
deriving DecidableEq, Repr

namespace Span

/-- The place of a bound in a vector of the given size: counted from the end when
negative, and moved to the nearest place there is. -/
def place (size : Nat) (bound : Int) : Nat :=
  if bound < 0 then (bound + size).toNat else min bound.toNat size

/-- The first place of the span in a vector of the given size. -/
def first (s : Span) (size : Nat) : Nat := place size s.start

/-- The number of places of the span in a vector of the given size. -/
def count (s : Span) (size : Nat) : Nat := place size s.stop - place size s.start

/-- The entries of a list that a span selects. -/
def select {β : Type} (s : Span) (xs : List β) : List β :=
  (xs.drop (s.first xs.length)).take (s.count xs.length)

end Span

/-- A position counted from the end when negative, if it is one of `n`. -/
def position? (n : Nat) (i : Int) : Option (Fin n) :=
  let k := if i < 0 then i + n else i
  if h : 0 ≤ k ∧ k < n then some ⟨k.toNat, by omega⟩ else none

/-- A numbering with a fixed count of components per node. -/
@[ext]
structure Layout where
  /-- The number of components of a node. -/
  perNode : Int
deriving DecidableEq, Repr

namespace Layout

/-- The numbering of a spatial frame: three linear components, then three
rotations. -/
def frame : Layout := ⟨6⟩

/-- The number of a component of a node. -/
def index (l : Layout) (node slot : Int) : Int := l.perNode * node + slot

/-- The number of components of so many nodes. -/
def size (l : Layout) (nodes : Int) : Int := l.perNode * nodes

/-- The numbers of the components of a node. -/
def nodeIndices (l : Layout) (node : Int) : List Int :=
  (List.range l.perNode.toNat).map fun (k : Nat) => l.index node k

/-- The numbers of the components of several nodes, node after node. -/
def elementMap (l : Layout) (nodes : List Int) : List Int := nodes.flatMap l.nodeIndices

/-- The three linear components of a node. -/
def linear (l : Layout) (node : Int) : Span := ⟨l.index node 0, l.index node 3⟩

/-- The three rotations of a node. Nodes with fewer than six components have
none. -/
def rotation {α : Type} (l : Layout) (node : Int) : Except (Failure α) Span :=
  if l.perNode < 6 then .error (.malformed (.noRotations l.perNode))
  else .ok ⟨l.index node 3, l.index node 6⟩

/-- The first linear component of a node. -/
def axial (l : Layout) (node : Int) : Int := l.index node 0

end Layout

end Corotation
