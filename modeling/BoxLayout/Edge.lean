-- SUMMARY: Named edges and dimensions of a box as expressions over the box's variables.
import BoxLayout.Box
import BoxLayout.Handle
import BoxLayout.Linear

/-!
# Edges

The variables of a box solve for its origin and size. Its other edges are linear
expressions over these, which is what lets a constraint mention them.
-/

namespace BoxLayout

/-- A named edge or dimension of a box. -/
inductive Edge where
  | left
  | right
  | top
  | bottom
  | centerX
  | centerY
  | width
  | height
  deriving DecidableEq

/-- The expression for an edge of the box with these variables. -/
def Edge.expression {α : Type} [Scalar α] (edge : Edge) (b : Box VariableId) :
    Linear VariableId α :=
  let half : α := 1 / ((2 : Nat) : α)
  match edge with
  | .left => .ofUnknown b.x
  | .right => .ofTerms 0 [(b.x, 1), (b.width, 1)]
  | .top => .ofUnknown b.y
  | .bottom => .ofTerms 0 [(b.y, 1), (b.height, 1)]
  | .centerX => .ofTerms 0 [(b.x, 1), (b.width, half)]
  | .centerY => .ofTerms 0 [(b.y, 1), (b.height, half)]
  | .width => .ofUnknown b.width
  | .height => .ofUnknown b.height

end BoxLayout
