-- SUMMARY: Why the constraint solver refuses a call, and the wording of each cause.

/-!
# Solver errors

A call is refused either for what was asked for, or because a simplex loop ended
without an answer. The latter are faults of the tableau, not of the caller.
-/

namespace BoxLayout

/-- A loop of the solver that could not go on. -/
inductive SolverFault where
  /-- A row was to be solved for a symbol it does not mention. -/
  | pivotMissing
  /-- An edit constraint was accepted but is not in the solver. -/
  | editMissing
  /-- No row mentions the marker of the constraint to be removed. -/
  | noLeavingRow
  /-- The objective can be lowered without end. -/
  | unbounded
  /-- No symbol can make up for a row that has become infeasible. -/
  | noEnteringSymbol
  deriving DecidableEq

def SolverFault.text : SolverFault → String
  | pivotMissing => "pivot symbol missing from row"
  | editMissing => "edit constraint missing after insertion"
  | noLeavingRow => "failed to find leaving row"
  | unbounded => "objective function is unbounded"
  | noEnteringSymbol => "dual optimize failed"

/-- Why the solver refused a call. -/
inductive SolverError where
  /-- The constraint is in the solver already. -/
  | duplicateConstraint
  /-- A required constraint contradicts the ones in the solver. -/
  | unsatisfiableConstraint
  /-- The constraint is not in the solver. -/
  | unknownConstraint
  /-- The variable is an edit variable already. -/
  | duplicateEditVariable
  /-- The variable is not an edit variable. -/
  | unknownEditVariable
  /-- A constant, a coefficient or a suggested value is infinite or undefined. -/
  | nonFiniteValue
  /-- The value of an edit variable was to be required. -/
  | badRequiredStrength
  /-- A simplex loop did not end within the number of steps it was given. -/
  | outOfSteps
  | internal (fault : SolverFault)
  deriving DecidableEq

namespace SolverError

def message : SolverError → String
  | duplicateConstraint => "The constraint is already in the solver"
  | unsatisfiableConstraint => "The constraint cannot be satisfied"
  | unknownConstraint => "The constraint is not in the solver"
  | duplicateEditVariable => "The variable is already an edit variable"
  | unknownEditVariable => "The variable is not an edit variable"
  | nonFiniteValue => "Value is not finite"
  | badRequiredStrength => "Edit variables cannot use required strength"
  | outOfSteps => "The solver ran out of steps"
  | internal fault => s!"Internal solver error: {fault.text}"

/-- The name of the cause alone. -/
def name : SolverError → String
  | duplicateConstraint => "DuplicateConstraint"
  | unsatisfiableConstraint => "UnsatisfiableConstraint"
  | unknownConstraint => "UnknownConstraint"
  | duplicateEditVariable => "DuplicateEditVariable"
  | unknownEditVariable => "UnknownEditVariable"
  | nonFiniteValue => "NonFiniteValue"
  | badRequiredStrength => "BadRequiredStrength"
  | outOfSteps => "OutOfSteps"
  | internal _ => "Internal"

end SolverError

end BoxLayout
