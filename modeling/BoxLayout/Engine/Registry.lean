-- SUMMARY: Registries of the variables and constraints that an engine has issued handles for.
import BoxLayout.Engine.Error
import BoxLayout.Solver

/-!
# Registries

A registry holds what an engine's handles refer to, in the order of issue. Handles
are numbered from zero and never issued twice. The registries are the source of
truth: the solver can be rebuilt from them at any time.
-/

namespace BoxLayout

/-- What is registered under the handles of one kind. -/
structure Registry (kind : HandleKind) (ε : Type) where
  owner : EngineId
  /-- The index of the next handle. -/
  next : Nat
  entries : OrderedMap (Handle kind) ε

namespace Registry

variable {kind : HandleKind} {ε : Type}

def empty (owner : EngineId) : Registry kind ε := ⟨owner, 0, ∅⟩

def size (r : Registry kind ε) : Nat := r.entries.size

/-- The registered handles in the order of issue. -/
def handles (r : Registry kind ε) : List (Handle kind) := r.entries.keys

/-- Issue a handle. -/
def issue (r : Registry kind ε) : Handle kind × Registry kind ε :=
  (⟨r.owner, r.next⟩, { r with next := r.next + 1 })

/-- Register something under a handle, or replace what is registered. -/
def put (r : Registry kind ε) (h : Handle kind) (entry : ε) : Registry kind ε :=
  { r with entries := r.entries.insert h entry }

def lookup (r : Registry kind ε) (h : Handle kind) : Except EngineError ε :=
  if h.owner = r.owner then
    match r.entries.get? h with
    | some entry => .ok entry
    | none => .error (.unknown kind h)
  else
    .error (.foreign kind h r.owner)

/-- Replace what is registered under a handle. -/
def update (r : Registry kind ε) (h : Handle kind) (f : ε → ε) :
    Except EngineError (Registry kind ε) := do
  let entry ← r.lookup h
  return r.put h (f entry)

/-- Take out what is registered under a handle. -/
def remove (r : Registry kind ε) (h : Handle kind) : Except EngineError (ε × Registry kind ε) := do
  let entry ← r.lookup h
  return (entry, { r with entries := r.entries.erase h })

def mapEntries (r : Registry kind ε) (f : Handle kind → ε → ε) : Registry kind ε :=
  { r with entries := r.entries.mapValues f }

end Registry

/-! ## Variables -/

/-- The solver variable that stands for a handle. -/
def Handle.backing (x : VariableId) : Variable := ⟨x.index⟩

/-- A registered variable. A required variable is pinned to its target by a
constraint, any other is an edit variable of the solver. -/
structure VariableEntry (α : Type) where
  priority : Priority
  /-- The value last suggested. -/
  target : α
  pin : Option (Constraint α)
  /-- The value last read from a solver. -/
  solved : α

namespace VariableEntry

variable {α : Type} [Scalar α]

/-- The pin that a variable of this priority has. -/
def pinFor (label : Label) (x : VariableId) (p : Priority) (target : α) : Option (Constraint α) :=
  if p.isRequired then some (.pin label x.backing target) else none

def create (label : Label) (x : VariableId) (p : Priority) (target : α) : VariableEntry α :=
  ⟨p, target, pinFor label x p target, target⟩

/-- Bring a variable into the solver. -/
def enter (x : VariableId) (entry : VariableEntry α) : Attempt SolverError (Solver α) Unit :=
  match entry.pin with
  | some pin => Solver.addConstraint pin
  | none => do
    Solver.addEditVariable x.backing (.ofPriority entry.priority)
    Solver.suggestValue x.backing entry.target

/-- Take a variable out of the solver. -/
def leave (x : VariableId) (entry : VariableEntry α) : Attempt SolverError (Solver α) Unit :=
  match entry.pin with
  | some pin => Solver.removeConstraint pin.label
  | none => Solver.removeEditVariable x.backing

end VariableEntry

abbrev VariableRegistry (α : Type) := Registry .var (VariableEntry α)

/-! ## Constraints -/

/-- What a caller states by a constraint. -/
structure Definition (α : Type) where
  lhs : Linear VariableId α
  relation : Relation
  rhs : Linear VariableId α
  priority : Priority

/-- Some term of either side is about this variable. -/
def Definition.mentions {α : Type} (d : Definition α) (x : VariableId) : Bool :=
  d.lhs.mentions x || d.rhs.mentions x

/-- A registered constraint. Its backing is what the solver holds, or would hold
if the constraint were enabled. -/
structure ConstraintEntry (α : Type) where
  definition : Definition α
  enabled : Bool
  backing : Constraint α

abbrev ConstraintRegistry (α : Type) := Registry .constraint (ConstraintEntry α)

/-- The constraints that mention a variable, in the order of issue. -/
def Registry.referencing {α : Type} (r : ConstraintRegistry α) (x : VariableId) :
    List ConstraintId :=
  (r.entries.entries.filter fun e => e.2.definition.mentions x).map Prod.fst

/-! ## Replay -/

variable {α : Type} [Scalar α]

/-- Bring everything that is registered into a solver: the variables, and then the
enabled constraints. -/
def enterAll (vars : VariableRegistry α) (constraints : ConstraintRegistry α) :
    Attempt SolverError (Solver α) Unit := do
  vars.entries.entries.forM fun e => e.2.enter e.1
  (constraints.entries.values.filter ConstraintEntry.enabled).forM fun entry =>
    Solver.addConstraint entry.backing

/-- A new solver that holds everything registered, or why there is none. -/
def replay (steps : Nat) (vars : VariableRegistry α) (constraints : ConstraintRegistry α) :
    Except SolverError (Solver α) :=
  match enterAll vars constraints (.empty steps) with
  | .ok _ s => .ok s
  | .error e _ => .error e

end BoxLayout
