-- SUMMARY: The layout engine: variables and constraints by handle, suggestions, edits and reads.
import BoxLayout.Engine.Recovery

/-!
# The layout engine

An engine solves for variables under constraints, both known to the caller by
handles. Each variable has a target, the value last suggested, and a priority that
says how much the target is wanted. Constraints can be changed and switched off
and on without losing their definition.

The only errors are about handles. What makes the constraints unsolvable is not an
error: reads then answer with the values last solved, until a change makes the
constraints solvable again.
-/

namespace BoxLayout.Engine

variable {α : Type} [Scalar α]

/-! ## Variables -/

def createVariable (target : α) (p : Priority) (e : Engine α) : VariableId × Engine α :=
  let (x, vars) := e.vars.issue
  let (label, e) := { e with vars := vars }.freshLabel
  let entry := VariableEntry.create label x p target
  let e := e.apply (entry.enter x)
  (x, { e with vars := e.vars.put x entry }.markChanged)

def variableEntry (x : VariableId) : Attempt EngineError (Engine α) (VariableEntry α) := do
  ofExcept ((← get).vars.lookup x)

/-- Remove a variable that no constraint mentions. -/
def removeVariable (x : VariableId) : Attempt EngineError (Engine α) Unit := do
  let _ ← variableEntry x
  match ((← get).constraints.referencing x).head? with
  | some c => throw (.variableInUse x c)
  | none =>
    let (entry, vars) ← ofExcept ((← get).vars.remove x)
    modify fun e => { e with vars := vars }
    modify (apply (entry.leave x))
    modify markChanged

/-- Suggest a target. The present target again changes nothing. -/
def suggest (x : VariableId) (target : α) : Attempt EngineError (Engine α) Unit := do
  let entry ← variableEntry x
  if entry.target == target then
    return
  match entry.pin with
  | some _ =>
    let label ← modifyGet freshLabel
    let moved := { entry with target := target, pin := some (.pin label x.backing target) }
    modify fun e => { e with vars := e.vars.put x moved }
    modify <| apply do
      entry.leave x
      moved.enter x
  | none =>
    modify fun e => { e with vars := e.vars.put x { entry with target := target } }
    modify (apply (Solver.suggestValue x.backing target))
  modify markChanged

def priorityOf (e : Engine α) (x : VariableId) : Except EngineError Priority :=
  (e.vars.lookup x).map VariableEntry.priority

def targetOf (e : Engine α) (x : VariableId) : Except EngineError α :=
  (e.vars.lookup x).map VariableEntry.target

/-- The solved value of a variable, after bringing all values up to date. -/
def read (x : VariableId) : Attempt EngineError (Engine α) α := do
  let _ ← variableEntry x
  modify refresh
  return (← variableEntry x).solved

/-! ## Constraints -/

/-- The solver variable behind a registered handle. -/
def backingOf (e : Engine α) (x : VariableId) : Except EngineError Variable :=
  (e.vars.lookup x).map fun _ => x.backing

/-- A constraint for the solver that states a definition. -/
def build (d : Definition α) : Attempt EngineError (Engine α) (Constraint α) := do
  let e ← get
  let lhs ← ofExcept (d.lhs.resolve e.backingOf)
  let rhs ← ofExcept (d.rhs.resolve e.backingOf)
  let label ← modifyGet freshLabel
  return .compare label lhs d.relation rhs d.priority

def constraintEntry (c : ConstraintId) : Attempt EngineError (Engine α) (ConstraintEntry α) := do
  ofExcept ((← get).constraints.lookup c)

def modifyEntry (c : ConstraintId) (f : ConstraintEntry α → ConstraintEntry α) :
    Attempt EngineError (Engine α) Unit := do
  let constraints ← ofExcept ((← get).constraints.update c f)
  modify fun e => { e with constraints := constraints }

/-- Put another constraint into the solver in place of one that is there. -/
def exchange (old new : Constraint α) : Attempt SolverError (Solver α) Unit := do
  Solver.removeConstraint old.label
  Solver.addConstraint new

/-- Register a constraint. A disabled one is kept from the solver. -/
def createConstraint (d : Definition α) (enabled : Bool) :
    Attempt EngineError (Engine α) ConstraintId := do
  let backing ← build d
  let (c, constraints) := (← get).constraints.issue
  modify fun e => { e with constraints := constraints }
  if enabled then
    modify (apply (Solver.addConstraint backing))
  modify fun e => { e with constraints := e.constraints.put c ⟨d, enabled, backing⟩ }
  modify markChanged
  return c

def removeConstraint (c : ConstraintId) : Attempt EngineError (Engine α) Unit := do
  let (entry, constraints) ← ofExcept ((← get).constraints.remove c)
  modify fun e => { e with constraints := constraints }
  if entry.enabled then
    modify (apply (Solver.removeConstraint entry.backing.label))
  modify markChanged

/-- Change the definition of a constraint. -/
def redefine (c : ConstraintId) (change : Definition α → Definition α) :
    Attempt EngineError (Engine α) Unit := do
  let entry ← constraintEntry c
  let d := change entry.definition
  let backing ← build d
  if entry.enabled then
    modify (apply (exchange entry.backing backing))
  modifyEntry c fun entry => { entry with definition := d, backing := backing }
  modify markChanged

def setLhs (c : ConstraintId) (lhs : Linear VariableId α) : Attempt EngineError (Engine α) Unit :=
  redefine c fun d => { d with lhs := lhs }

def setRhs (c : ConstraintId) (rhs : Linear VariableId α) : Attempt EngineError (Engine α) Unit :=
  redefine c fun d => { d with rhs := rhs }

def setRelation (c : ConstraintId) (r : Relation) : Attempt EngineError (Engine α) Unit :=
  redefine c fun d => { d with relation := r }

def setConstraintPriority (c : ConstraintId) (p : Priority) : Attempt EngineError (Engine α) Unit :=
  redefine c fun d => { d with priority := p }

/-- Switch a constraint on or off. Its present state again changes nothing. -/
def setEnabled (c : ConstraintId) (enabled : Bool) : Attempt EngineError (Engine α) Unit := do
  let entry ← constraintEntry c
  if entry.enabled = enabled then
    return
  modifyEntry c fun entry => { entry with enabled := enabled }
  if enabled then
    modify (apply (Solver.addConstraint entry.backing))
  else
    modify (apply (Solver.removeConstraint entry.backing.label))
  modify markChanged

def definitionOf (e : Engine α) (c : ConstraintId) : Except EngineError (ConstraintEntry α) :=
  e.constraints.lookup c

/-- The constraints that mention a variable, in the order of issue. -/
def referencing (e : Engine α) (x : VariableId) : Except EngineError (List ConstraintId) :=
  (e.vars.lookup x).map fun _ => e.constraints.referencing x

/-! ## Priorities of variables -/

/-- Give an enabled constraint a new backing. -/
def refreshBacking (c : ConstraintId) : Attempt EngineError (Engine α) Unit := do
  let entry ← constraintEntry c
  if entry.enabled then
    let backing ← build entry.definition
    modifyEntry c fun entry => { entry with backing := backing }
    modify (apply (exchange entry.backing backing))

/-- Change the priority of a variable. The present one again changes nothing. When
a pin gives way to an edit variable, the constraints that mention the variable are
put into the solver anew. -/
def setVariablePriority (x : VariableId) (p : Priority) : Attempt EngineError (Engine α) Unit := do
  let entry ← variableEntry x
  if entry.priority = p then
    return
  let label ← modifyGet freshLabel
  let moved := { entry with priority := p, pin := VariableEntry.pinFor label x p entry.target }
  modify fun e => { e with vars := e.vars.put x moved }
  modify <| apply do
    entry.leave x
    moved.enter x
  if entry.pin.isSome && !p.isRequired then
    ((← get).constraints.referencing x).forM refreshBacking
  modify markChanged

/-! ## Listening -/

/-- Whether anything changed since this was last asked. -/
def takeDirty (e : Engine α) : Bool × Engine α := (e.dirty, { e with dirty := false })

def listen (e : Engine α) : Engine α := { e with hooked := true }

def stopListening (e : Engine α) : Engine α := { e with hooked := false }

/-- Take everything out of the journal. -/
def takeJournal (e : Engine α) : Journal × Engine α := (e.journal, { e with journal := .empty })

end BoxLayout.Engine
