-- SUMMARY: The three relations a constraint can state.

/-!
# Relations

The sides of a constraint are compared by one of three relations; both
inequalities include equality. What comes without a relation is an equality.
-/

namespace BoxLayout

/-- How the left side of a constraint compares with the right side. -/
inductive Relation where
  | equal
  | atMost
  | atLeast
  deriving DecidableEq

namespace Relation

instance : Inhabited Relation := ⟨equal⟩

def text : Relation → String
  | equal => "=="
  | atMost => "<="
  | atLeast => ">="

/-- The relation as a proposition about two values. -/
def Holds {α : Type} [LE α] : Relation → α → α → Prop
  | equal, a, b => a = b
  | atMost, a, b => a ≤ b
  | atLeast, a, b => b ≤ a

instance {α : Type} [LE α] [DecidableEq α] [DecidableLE α] (r : Relation) (a b : α) :
    Decidable (r.Holds a b) :=
  match r with
  | equal => inferInstanceAs (Decidable (a = b))
  | atMost => inferInstanceAs (Decidable (a ≤ b))
  | atLeast => inferInstanceAs (Decidable (b ≤ a))

end Relation

end BoxLayout
