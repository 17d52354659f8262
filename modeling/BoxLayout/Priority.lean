-- SUMMARY: The eight priority levels of constraints and variables.

/-!
# Priorities

Level 0 is required: what is asked for at this level has to hold exactly. The
other levels are preferences, from 1, the strongest, to 7, the weakest. What
comes without a priority is required.
-/

namespace BoxLayout

/-- How much a constraint or a variable's value is wanted. -/
inductive Priority where
  | p0 | p1 | p2 | p3 | p4 | p5 | p6 | p7
  deriving DecidableEq

namespace Priority

instance : Inhabited Priority := ⟨p0⟩

/-- All levels, strongest first. -/
def all : List Priority := [p0, p1, p2, p3, p4, p5, p6, p7]

def level : Priority → Nat
  | p0 => 0
  | p1 => 1
  | p2 => 2
  | p3 => 3
  | p4 => 4
  | p5 => 5
  | p6 => 6
  | p7 => 7

/-- The priority of a numeric level, if there is one. -/
def ofLevel? (n : Nat) : Option Priority := all[n]?

/-- Priorities are ordered by level, so the stronger one is the lesser. -/
instance : LT Priority := ⟨fun p q => p.level < q.level⟩

instance : DecidableLT Priority := fun p q => inferInstanceAs (Decidable (p.level < q.level))

def isRequired (p : Priority) : Bool := p = p0

def text (p : Priority) : String := s!"P{p.level}"

theorem ofLevel?_level (p : Priority) : ofLevel? p.level = some p := by
  cases p <;> rfl

theorem isRequired_iff {p : Priority} : p.isRequired = true ↔ p = p0 :=
  decide_eq_true_iff

end Priority

end BoxLayout
