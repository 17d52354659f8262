-- SUMMARY: Axis-aligned boxes: their sides, containment, overlap and comparison.
import BoxLayout.Scalar.Double

/-!
# Boxes

A box has an origin, a width and a height. Its right and bottom sides are computed
from these, so a box made by `intersect` may have sides that differ from those of
the boxes it came from where arithmetic rounds.
-/

namespace BoxLayout

/-- Four quantities of a box: numbers, or handles of the variables that solve for them. -/
structure Box (α : Type) where
  x : α
  y : α
  width : α
  height : α
  deriving DecidableEq

namespace Box

variable {α β : Type}

def map (f : α → β) (b : Box α) : Box β := ⟨f b.x, f b.y, f b.width, f b.height⟩

def toList (b : Box α) : List α := [b.x, b.y, b.width, b.height]

variable [Scalar α]

/-! ## Sides -/

def right (b : Box α) : α := b.x + b.width

def bottom (b : Box α) : α := b.y + b.height

def centerX (b : Box α) : α := b.x + b.width / ((2 : Nat) : α)

def centerY (b : Box α) : α := b.y + b.height / ((2 : Nat) : α)

/-! ## Points and overlap -/

/-- The point lies in the box or on a side of it. -/
def contains (b : Box α) (x y : α) : Bool :=
  decide (b.x ≤ x) && decide (x ≤ b.right) && decide (b.y ≤ y) && decide (y ≤ b.bottom)

/-- The common part of two boxes, if it has an area. -/
def intersect (a b : Box α) : Option (Box α) :=
  let left := Scalar.larger a.x b.x
  let top := Scalar.larger a.y b.y
  let right := Scalar.smaller a.right b.right
  let bottom := Scalar.smaller a.bottom b.bottom
  if left < right ∧ top < bottom then some ⟨left, top, right - left, bottom - top⟩ else none

/-! ## Comparison -/

/-- No quantity differs by more than a tolerance. -/
def approxEq (a b : Box α) (tolerance : α) : Bool :=
  let close (x y : α) : Bool := decide (Scalar.magnitude (x - y) ≤ tolerance)
  close a.x b.x && close a.y b.y && close a.width b.width && close a.height b.height

/-- Both boxes have equal numbers. -/
def same (a b : Box α) : Bool :=
  a.x == b.x && a.y == b.y && a.width == b.width && a.height == b.height

end Box

/-! ## Single precision -/

/-- A pair of single-width numbers, as graphics code takes them. -/
structure Vector2 where
  x : Float32
  y : Float32

namespace Box

def position (b : Box Float) : Vector2 := ⟨b.x.toFloat32, b.y.toFloat32⟩

def size (b : Box Float) : Vector2 := ⟨b.width.toFloat32, b.height.toFloat32⟩

def ofVectors (position size : Vector2) : Box Float :=
  ⟨position.x.toFloat, position.y.toFloat, size.x.toFloat, size.y.toFloat⟩

end Box

end BoxLayout
