-- SUMMARY: Constraint strengths, their three tiers, and the strength of each priority.
import BoxLayout.Scalar
import BoxLayout.Priority

/-!
# Strengths

The solver weighs the violation of a constraint by its strength. A strength is
made of three tiers, each between 0 and 1000, that count for a million, a
thousand and one. All three tiers at their maximum mean required.

Each preference uses one tier. A tier at its maximum stays below the least
strength that the next tier gives to a priority, so a preference of a lower tier
does not outweigh one of a higher tier.
-/

namespace BoxLayout

/-- The weight of a constraint in the solver. -/
structure Strength (α : Type) where
  weight : α

namespace Strength

variable {α : Type} [Scalar α]

/-- The strength from which a constraint has to hold exactly. -/
def required : Strength α := ⟨((1001001000 : Nat) : α)⟩

/-- A tier's value, kept between 0 and 1000. -/
def tier (x : α) : α := Scalar.clamp 0 ((1000 : Nat) : α) x

/-- The strength made of three tiers, each scaled by `weight`. -/
def ofTiers (strong medium weak weight : α) : Strength α :=
  ⟨tier (strong * weight) * ((1000000 : Nat) : α) + tier (medium * weight) * ((1000 : Nat) : α)
    + tier (weak * weight)⟩

/-- The nearest strength between 0 and required. -/
def clip (s : Strength α) : Strength α := ⟨Scalar.clamp 0 required.weight s.weight⟩

def isRequired (s : Strength α) : Bool := (required : Strength α).weight ≤ s.weight

end Strength

/-- The strong, medium and weak tiers of a priority. -/
def Priority.tiers : Priority → Nat × Nat × Nat
  | .p0 => (1000, 1000, 1000)
  | .p1 => (100, 0, 0)
  | .p2 => (10, 0, 0)
  | .p3 => (0, 100, 0)
  | .p4 => (0, 10, 0)
  | .p5 => (0, 0, 100)
  | .p6 => (0, 0, 10)
  | .p7 => (0, 0, 1)

/-- The strength that stands for a priority in the solver. -/
def Strength.ofPriority {α : Type} [Scalar α] (p : Priority) : Strength α :=
  let (strong, medium, weak) := p.tiers
  ofTiers (strong : α) (medium : α) (weak : α) 1

end BoxLayout
