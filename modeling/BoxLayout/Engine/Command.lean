-- SUMMARY: The calls of an engine as data, with their answers.
import BoxLayout.Engine

/-!
# Engine commands

A command is one call of an engine, and a reply is what the call answers. A
history of an engine is a list of commands. The mutations are the commands that
can change a registry.
-/

namespace BoxLayout.Engine

/-- A call of an engine. -/
inductive Command (α : Type) where
  | createVariable (target : α) (p : Priority)
  | removeVariable (x : VariableId)
  | suggest (x : VariableId) (target : α)
  | setVariablePriority (x : VariableId) (p : Priority)
  | read (x : VariableId)
  | priorityOf (x : VariableId)
  | targetOf (x : VariableId)
  | listVariables
  | createConstraint (d : Definition α) (enabled : Bool)
  | removeConstraint (c : ConstraintId)
  | setLhs (c : ConstraintId) (lhs : Linear VariableId α)
  | setRhs (c : ConstraintId) (rhs : Linear VariableId α)
  | setRelation (c : ConstraintId) (r : Relation)
  | setConstraintPriority (c : ConstraintId) (p : Priority)
  | setEnabled (c : ConstraintId) (enabled : Bool)
  | definitionOf (c : ConstraintId)
  | referencing (x : VariableId)
  | listConstraints
  | takeDirty
  | listen
  | stopListening

/-- What a call answers. -/
inductive Reply (α : Type) where
  | done
  | flag (b : Bool)
  | number (x : α)
  | priority (p : Priority)
  | handle {kind : HandleKind} (h : Handle kind)
  | handles {kind : HandleKind} (hs : List (Handle kind))
  | definition (d : Definition α) (enabled : Bool)

namespace Command

variable {α : Type} [Scalar α]

/-- The command can change a registry. -/
def isMutation : Command α → Bool
  | createVariable .. | removeVariable .. | suggest .. | setVariablePriority .. => true
  | createConstraint .. | removeConstraint .. => true
  | setLhs .. | setRhs .. | setRelation .. | setConstraintPriority .. | setEnabled .. => true
  | read .. | priorityOf .. | targetOf .. | listVariables => false
  | definitionOf .. | referencing .. | listConstraints => false
  | takeDirty | listen | stopListening => false

def run : Command α → Attempt EngineError (Engine α) (Reply α)
  | createVariable target p => return .handle (← modifyGet (Engine.createVariable target p))
  | removeVariable x => do
    Engine.removeVariable x
    return .done
  | suggest x target => do
    Engine.suggest x target
    return .done
  | setVariablePriority x p => do
    Engine.setVariablePriority x p
    return .done
  | read x => return .number (← Engine.read x)
  | priorityOf x => return .priority (← ofExcept ((← get).priorityOf x))
  | targetOf x => return .number (← ofExcept ((← get).targetOf x))
  | listVariables => return .handles (← get).vars.handles
  | createConstraint d enabled => return .handle (← Engine.createConstraint d enabled)
  | removeConstraint c => do
    Engine.removeConstraint c
    return .done
  | setLhs c lhs => do
    Engine.setLhs c lhs
    return .done
  | setRhs c rhs => do
    Engine.setRhs c rhs
    return .done
  | setRelation c r => do
    Engine.setRelation c r
    return .done
  | setConstraintPriority c p => do
    Engine.setConstraintPriority c p
    return .done
  | setEnabled c enabled => do
    Engine.setEnabled c enabled
    return .done
  | definitionOf c => do
    let entry ← ofExcept ((← get).definitionOf c)
    return .definition entry.definition entry.enabled
  | referencing x => return .handles (← ofExcept ((← get).referencing x))
  | listConstraints => return .handles (← get).constraints.handles
  | takeDirty => return .flag (← modifyGet Engine.takeDirty)
  | listen => do
    modify Engine.listen
    return .done
  | stopListening => do
    modify Engine.stopListening
    return .done

/-- The answer of a command and the engine after it. -/
def perform (c : Command α) (e : Engine α) : Except EngineError (Reply α) × Engine α :=
  match c.run e with
  | .ok r e => (.ok r, e)
  | .error err e => (.error err, e)

end Command

variable {α : Type} [Scalar α]

/-- The engine after a history. -/
def after (e : Engine α) (history : List (Command α)) : Engine α :=
  history.foldl (fun e c => (c.perform e).2) e

/-- The answers to a history, in order. -/
def answers (e : Engine α) : List (Command α) → List (Except EngineError (Reply α))
  | [] => []
  | c :: history => (c.perform e).1 :: answers (c.perform e).2 history

end BoxLayout.Engine
