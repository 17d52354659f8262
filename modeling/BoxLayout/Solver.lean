-- SUMMARY: The incremental constraint solver: constraints, edit variables, suggestions and values.
import BoxLayout.Solver.Constraint
import BoxLayout.Solver.Simplex

/-!
# The constraint solver

The solver keeps a set of linear constraints of different strengths and finds
values for their variables: the required constraints hold, and the others are
violated as little as possible, weighed by strength.

An edit variable is held near a target by a constraint of its own. `suggestValue`
moves the target, which is cheaper than replacing a constraint: the tableau keeps
its shape and the dual simplex mends the rows that became infeasible.

A call that fails leaves the solver as the failing step left it. The solver can
be used on, but what it holds after a failure is not promised to be consistent.
-/

namespace BoxLayout

/-- What the solver knows about a variable: its symbol, and its value when values
were last updated. -/
structure Tracked (α : Type) where
  symbol : Symbol
  value : α

/-- A constraint in the solver and the symbols it brought along. -/
structure Active (α : Type) where
  constraint : Constraint α
  tag : Tag

/-- The constraint that holds an edit variable near its target. -/
structure Edit (α : Type) where
  tag : Tag
  constraint : Constraint α
  target : α

structure Solver (α : Type) where
  tableau : Tableau α
  constraints : OrderedMap Label (Active α)
  tracked : OrderedMap Variable (Tracked α)
  edits : OrderedMap Variable (Edit α)
  /-- How many edit constraints have been made. -/
  editCount : Nat
  /-- How many steps a simplex loop may take. -/
  steps : Nat

namespace Solver

variable {α : Type} [Scalar α]

def empty (steps : Nat) : Solver α := ⟨.empty, ∅, ∅, ∅, 0, steps⟩

/-- Run an attempt on the tableau. -/
def onTableau {β : Type} (m : Attempt SolverError (Tableau α) β) :
    Attempt SolverError (Solver α) β :=
  Attempt.onPart Solver.tableau (fun t s => { s with tableau := t }) m

/-! ## From a constraint to its row -/

/-- The symbol of a variable. A variable is known from its first occurrence on. -/
def symbolOf (x : Variable) (s : Solver α) : Symbol × Solver α :=
  match s.tracked.get? x with
  | some known => (known.symbol, s)
  | none =>
    let (symbol, t) := s.tableau.fresh .external
    (symbol, { s with tableau := t, tracked := s.tracked.insert x ⟨symbol, 0⟩ })

/-- Add a term to a row. A term that is nearly zero does not make its variable known. -/
def addTerm (row : Row α) (term : Term Variable α) (s : Solver α) : Row α × Solver α :=
  if nearZero term.coefficient then (row, s)
  else
    let (symbol, s) := s.symbolOf term.unknown
    (s.tableau.addTo row symbol term.coefficient, s)

/-- An expression as a row over non-basic symbols. -/
def expand (e : Linear Variable α) (s : Solver α) : Row α × Solver α :=
  e.terms.foldl (fun acc term => acc.2.addTerm acc.1 term) (.ofConstant e.constant, s)

/-- The row and the symbols of a constraint. Its errors enter the objective with
its strength, and the row is turned so that its constant is not negative. -/
def createRow (c : Constraint α) (s : Solver α) : (Row α × Tag) × Solver α :=
  let (row, s) := s.expand c.expression
  let (tag, t) := s.tableau.freshTag c.relation c.isRequired
  let row := (tag.terms c.relation).foldl (fun row term => row.addSymbol term.1 term.2) row
  let objective := tag.errors.foldl (fun o e => o.addSymbol e c.strength.weight) t.objective
  let row := if row.constant < 0 then row.negate else row
  ((row, tag), { s with tableau := { t with objective := objective } })

/-! ## Constraints -/

def hasConstraint (s : Solver α) (label : Label) : Bool := s.constraints.contains label

def addConstraint (c : Constraint α) : Attempt SolverError (Solver α) Unit := do
  if (← get).hasConstraint c.label then
    throw .duplicateConstraint
  unless c.expression.isFinite do
    throw .nonFiniteValue
  let (row, tag) ← modifyGet (createRow c)
  let steps := (← get).steps
  onTableau (Tableau.enterRow steps row tag)
  modify fun s => { s with constraints := s.constraints.insert c.label ⟨c, tag⟩ }
  onTableau (Tableau.optimize .primary steps)

/-- Take the errors of a constraint out of the objective. -/
def withdrawErrors (active : Active α) (t : Tableau α) : Tableau α :=
  active.tag.errors.foldl
    (fun t e => t.addToObjective e (-active.constraint.strength.weight)) t

def removeConstraint (label : Label) : Attempt SolverError (Solver α) Unit := do
  match (← get).constraints.get? label with
  | none => throw .unknownConstraint
  | some active =>
    modify fun s => { s with
      constraints := s.constraints.swapErase label
      tableau := withdrawErrors active s.tableau }
    onTableau (Tableau.removeMarker active.tag.marker)
    onTableau (Tableau.optimize .primary (← get).steps)

/-! ## Edit variables -/

def hasEditVariable (s : Solver α) (x : Variable) : Bool := s.edits.contains x

/-- A new constraint to hold a variable near zero, for its target to be moved from there. -/
def issueEdit (x : Variable) (strength : Strength α) (s : Solver α) : Constraint α × Solver α :=
  (.make (.edit s.editCount) (.ofUnknown x) .equal strength,
    { s with editCount := s.editCount + 1 })

def addEditVariable (x : Variable) (strength : Strength α) :
    Attempt SolverError (Solver α) Unit := do
  if (← get).hasEditVariable x then
    throw .duplicateEditVariable
  let strength := strength.clip
  if strength.isRequired then
    throw .badRequiredStrength
  let c ← modifyGet (issueEdit x strength)
  addConstraint c
  match (← get).constraints.get? c.label with
  | none => throw (.internal .editMissing)
  | some active => modify fun s => { s with edits := s.edits.insert x ⟨active.tag, c, 0⟩ }

def removeEditVariable (x : Variable) : Attempt SolverError (Solver α) Unit := do
  match (← get).edits.get? x with
  | none => throw .unknownEditVariable
  | some edit =>
    removeConstraint edit.constraint.label
    modify fun s => { s with edits := s.edits.swapErase x }

/-- Move the target of an edit variable. -/
def suggestValue (x : Variable) (value : α) : Attempt SolverError (Solver α) Unit := do
  unless isFinite value do
    throw .nonFiniteValue
  match (← get).edits.get? x with
  | none => throw .unknownEditVariable
  | some edit =>
    modify fun s => { s with
      edits := s.edits.insert x { edit with target := value }
      tableau := s.tableau.shiftEdit edit.tag (value - edit.target) }
    onTableau (Tableau.restore (← get).steps)

/-! ## Values -/

/-- The value of a symbol: its row's constant, or zero if it is not basic. -/
def symbolValue (s : Solver α) (symbol : Symbol) : α :=
  match s.tableau.rows.get? symbol with
  | some row => row.constant
  | none => 0

/-- Bring the values of all variables up to date. -/
def updateVariables (s : Solver α) : Solver α :=
  { s with tracked := s.tracked.mapValues fun _ x => { x with value := s.symbolValue x.symbol } }

/-- The value of a variable when values were last updated. -/
def value (s : Solver α) (x : Variable) : α :=
  match s.tracked.get? x with
  | some known => known.value
  | none => 0

end Solver

end BoxLayout
