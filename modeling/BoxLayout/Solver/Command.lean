-- SUMMARY: The calls that change a solver, as data.
import BoxLayout.Solver

/-!
# Solver commands

A command is one call of the solver. A history of a solver is a list of commands;
each is run in the state that the one before it left, whether that one failed or
not.
-/

namespace BoxLayout.Solver

/-- A call that may change the solver. -/
inductive Command (α : Type) where
  | addConstraint (c : Constraint α)
  | removeConstraint (label : Label)
  | addEditVariable (x : Variable) (strength : Strength α)
  | removeEditVariable (x : Variable)
  | suggestValue (x : Variable) (value : α)
  | updateVariables

namespace Command

variable {α : Type} [Scalar α]

def run : Command α → Attempt SolverError (Solver α) Unit
  | addConstraint c => Solver.addConstraint c
  | removeConstraint label => Solver.removeConstraint label
  | addEditVariable x strength => Solver.addEditVariable x strength
  | removeEditVariable x => Solver.removeEditVariable x
  | suggestValue x value => Solver.suggestValue x value
  | updateVariables => modify Solver.updateVariables

/-- The answer of a command and the solver after it. -/
def perform (c : Command α) (s : Solver α) : Except SolverError Unit × Solver α :=
  match c.run s with
  | .ok _ s => (.ok (), s)
  | .error e s => (.error e, s)

end Command

/-- The solver after a history. -/
def after {α : Type} [Scalar α] (s : Solver α) (history : List (Command α)) : Solver α :=
  history.foldl (fun s c => (c.perform s).2) s

end BoxLayout.Solver
