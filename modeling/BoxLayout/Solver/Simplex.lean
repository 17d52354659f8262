-- SUMMARY: The simplex loops on a tableau: the primal one, the dual one, and the addition of a row without a subject.
import BoxLayout.Attempt
import BoxLayout.Solver.Tableau

/-!
# Simplex

Three searches choose a pivot. All of them follow the order of rows and cells and
take the first candidate of least ratio, so equal histories make equal choices.
There is no rule against cycling: the loops are given a number of steps.

* `primalStep` lowers an objective. Some symbol with a negative coefficient enters
  the basis and the row that limits its increase most leaves.
* `dualStep` mends a row with a negative constant. The symbol that costs the
  objective least enters.
* `markerRow?` finds the row to leave when a constraint's marker has to become
  basic so that the constraint can be removed.
-/

namespace BoxLayout

namespace Tableau

variable {α β : Type} [Scalar α]

/-! ## Least ratios -/

/-- The better of the best candidate so far and a new one. -/
def betterRatio (best : Option (β × α)) (new : β × α) : Option (β × α) :=
  match best with
  | none => if belowLargest new.2 then some new else none
  | some old => if new.2 < old.2 then some new else some old

/-- The first candidate of least ratio. A ratio that is not below the largest
finite number is no candidate. -/
def leastRatio (candidates : List (β × α)) : Option β :=
  (candidates.foldl betterRatio none).map Prod.fst

/-- The row that limits the increase of a symbol most. -/
def leavingRow? (t : Tableau α) (entering : Symbol) : Option (Symbol × Row α) :=
  leastRatio <| t.rows.entries.filterMap fun e =>
    let k := e.2.coefficient entering
    if !e.1.isExternal && decide (k < 0) then some (e, -e.2.constant / k) else none

/-- The symbol whose increase mends a row at the least cost to the objective. -/
def enteringSymbol? (t : Tableau α) (row : Row α) : Option Symbol :=
  leastRatio <| row.cells.entries.filterMap fun c =>
    if decide (0 < c.2) && !c.1.isDummy then some (c.1, t.objective.coefficient c.1 / c.2) else none

/-- The row to leave for a marker. Rows that limit the marker's increase come
first, then those that limit its decrease, then the last external row. -/
def markerRow? (t : Tableau α) (marker : Symbol) : Option (Symbol × Row α) :=
  let users := t.rows.entries.filter fun e => !(e.2.coefficient marker == 0)
  let bounded := users.filter fun e => !e.1.isExternal
  let falling := bounded.filter fun e => decide (e.2.coefficient marker < 0)
  let rising := bounded.filter fun e => !decide (e.2.coefficient marker < 0)
  leastRatio (falling.map fun e => (e, -e.2.constant / e.2.coefficient marker))
    <|> leastRatio (rising.map fun e => (e, e.2.constant / e.2.coefficient marker))
    <|> (users.filter fun e => e.1.isExternal).getLast?

/-! ## Pivots -/

/-- Make `entering` basic by the row of `leaving`, which is no longer in the tableau. -/
def pivot (leaving : Symbol) (row : Row α) (entering : Symbol) :
    Attempt SolverError (Tableau α) Unit := do
  let solved ← ofExcept (row.exchange leaving entering)
  modify (install entering solved)

/-! ## The primal loop -/

/-- What a primal loop minimises. -/
inductive Goal where
  | primary
  | artificial
  deriving DecidableEq

def goalRow? (goal : Goal) (t : Tableau α) : Option (Row α) :=
  match goal with
  | .primary => some t.objective
  | .artificial => t.artificial

/-- Lower the goal by one pivot. Answers `false` if no pivot can lower it. -/
def primalStep (goal : Goal) : Attempt SolverError (Tableau α) Bool := do
  let t ← get
  match (t.goalRow? goal).bind Row.descent? with
  | none => return false
  | some entering =>
    match t.leavingRow? entering with
    | none => throw (.internal .unbounded)
    | some (leaving, row) =>
      modify (dropRow leaving)
      pivot leaving row entering
      return true

def optimize (goal : Goal) (steps : Nat) : Attempt SolverError (Tableau α) Unit :=
  Attempt.loop (primalStep goal) .outOfSteps steps

/-! ## The dual loop -/

/-- Mend the latest infeasible row by one pivot, if it needs one. Answers `false`
if no row is waiting. -/
def dualStep : Attempt SolverError (Tableau α) Bool := do
  let t ← get
  match t.infeasible with
  | [] => return false
  | leaving :: waiting =>
    set { t with infeasible := waiting }
    match t.rows.get? leaving with
    | none => return true
    | some row =>
      if row.constant < 0 && !nearZero row.constant then
        match t.enteringSymbol? row with
        | none => throw (.internal .noEnteringSymbol)
        | some entering =>
          modify (dropRow leaving)
          pivot leaving row entering
          return true
      else
        return true

def restore (steps : Nat) : Attempt SolverError (Tableau α) Unit :=
  Attempt.loop dualStep .outOfSteps steps

/-! ## Adding a row -/

/-- Add a row by an artificial basic symbol that is then driven to zero. Answers
whether it could be. -/
def addArtificially (steps : Nat) (row : Row α) : Attempt SolverError (Tableau α) Bool := do
  let art ← modifyGet (fresh .slack)
  modify fun t => { t.setRow art row with artificial := some row }
  optimize .artificial steps
  let feasible := (← get).artificial.any fun goal => nearZero goal.constant
  modify fun t => { t with artificial := none }
  match (← get).rows.get? art with
  | none =>
    modify (forget art)
    return feasible
  | some left =>
    modify (dropRow art)
    if left.cells.isEmpty then
      return feasible
    match left.pivotable? with
    | none => return false
    | some entering =>
      pivot art left entering
      modify (forget art)
      return feasible

end Tableau

/-- The symbol to solve a new row for: any external one, or else a slack or error
symbol of the row's own constraint that the row makes positive. -/
def Row.subject? {α : Type} [Scalar α] (row : Row α) (tag : Tag) : Option Symbol :=
  row.cells.keys.find? Symbol.isExternal
    <|> tag.symbols.find? fun s => s.isPivotable && decide (row.coefficient s < 0)

namespace Tableau

variable {α : Type} [Scalar α]

/-- Enter the row of a new constraint. A row of dummies alone follows from the
required equalities if its constant is zero, and contradicts them otherwise. -/
def enterRow (steps : Nat) (row : Row α) (tag : Tag) : Attempt SolverError (Tableau α) Unit := do
  match row.subject? tag with
  | some subject =>
    let solved ← ofExcept (row.solveFor subject)
    modify (install subject solved)
  | none =>
    if row.allDummies then
      unless nearZero row.constant do
        throw .unsatisfiableConstraint
      let solved ← ofExcept (row.solveFor tag.marker)
      modify (install tag.marker solved)
    else
      let feasible ← addArtificially steps row
      unless feasible do
        throw .unsatisfiableConstraint

/-- Remove the row by which a constraint is in the tableau. If its marker is not
basic it is pivoted in first. -/
def removeMarker (marker : Symbol) : Attempt SolverError (Tableau α) Unit := do
  let t ← get
  if t.rows.contains marker then
    set (t.dropRow marker)
  else
    match t.markerRow? marker with
    | none => throw (.internal .noLeavingRow)
    | some (leaving, row) =>
      modify (dropRow leaving)
      let solved ← ofExcept (row.exchange leaving marker)
      modify (substitute marker solved)

end Tableau

end BoxLayout
