-- SUMMARY: Solver variables and constraints, and the labels that tell constraints apart.
import BoxLayout.Linear
import BoxLayout.Relation
import BoxLayout.Strength

/-!
# Constraints

A constraint states that a linear expression is zero, at most zero or at least
zero. The solver tells constraints apart by their labels: two constraints that
say the same under different labels are two constraints. A constraint never
changes; to change one, remove it and add another in its place.
-/

namespace BoxLayout

/-- An unknown of the solver. Its number is chosen by the caller. -/
structure Variable where
  number : Nat
  deriving DecidableEq, Inhabited

/-- What a constraint is known by. Callers and the solver number theirs separately. -/
inductive Label where
  /-- A constraint of the caller. -/
  | caller (n : Nat)
  /-- The constraint that the solver keeps for an edit variable. -/
  | edit (n : Nat)
  deriving DecidableEq

/-- `expression relation 0`, wanted with some strength. -/
structure Constraint (α : Type) where
  label : Label
  expression : Linear Variable α
  relation : Relation
  strength : Strength α

namespace Constraint

variable {α : Type} [Scalar α]

/-- A constraint, its strength brought into the range from 0 to required. -/
def make (label : Label) (e : Linear Variable α) (r : Relation) (s : Strength α) : Constraint α :=
  ⟨label, e, r, s.clip⟩

/-- The constraint `lhs r rhs` at a priority, stated about the difference of its sides. -/
def compare (label : Label) (lhs : Linear Variable α) (r : Relation) (rhs : Linear Variable α)
    (p : Priority) : Constraint α :=
  make label (lhs.addScaled rhs (-1)) r (.ofPriority p)

/-- The required constraint that pins a variable to a value. -/
def pin (label : Label) (x : Variable) (value : α) : Constraint α :=
  compare label (.ofUnknown x) .equal (.ofConstant value) .p0

def isRequired (c : Constraint α) : Bool := c.strength.isRequired

/-- Both are the same constraint, whatever they say. -/
def sameAs (c d : Constraint α) : Bool := c.label = d.label

end Constraint

end BoxLayout
