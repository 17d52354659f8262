-- SUMMARY: The engine's state, and how it loses, rebuilds and reads its solver.
import BoxLayout.Engine.Journal
import BoxLayout.Engine.Registry

/-!
# Losing and rebuilding the solver

An engine has a solver most of the time. When the solver refuses a change the
engine drops it and goes on with the registries alone: further changes only touch
the registries. The next read builds a new solver from them. If that fails, reads
answer with the values last solved until a rebuild succeeds.

Changes only mark the engine. Values are brought up to date by the first read
after any number of changes.
-/

namespace BoxLayout

structure EngineOptions where
  /-- Try a failed rebuild again at every read, and not only after the next change. -/
  retryFailedRebuild : Bool
  /-- How many steps a loop of the solver may take. -/
  steps : Nat

def EngineOptions.default : EngineOptions := ⟨true, 1000000000⟩

structure Engine (α : Type) where
  id : EngineId
  options : EngineOptions
  solver : Option (Solver α)
  vars : VariableRegistry α
  constraints : ConstraintRegistry α
  /-- How many labels have been given to constraints for the solver. -/
  labels : Nat
  /-- The solved values may be out of date. -/
  outdated : Bool
  /-- Something changed since the caller last asked. -/
  dirty : Bool
  /-- A rebuild failed and nothing changed since. -/
  rebuildBlocked : Bool
  health : Health
  /-- Somebody listens to events. -/
  hooked : Bool
  journal : Journal

namespace Engine

variable {α : Type} [Scalar α]

def create (id : EngineId) (options : EngineOptions) : Engine α where
  id := id
  options := options
  solver := some (.empty options.steps)
  vars := .empty id
  constraints := .empty id
  labels := 0
  outdated := false
  dirty := false
  rebuildBlocked := false
  health := .initial
  hooked := false
  journal := .empty

def isLive (e : Engine α) : Bool := e.solver.isSome

/-- A label that no constraint has had. -/
def freshLabel (e : Engine α) : Label × Engine α :=
  (.caller e.labels, { e with labels := e.labels + 1 })

/-! ## Records -/

def log (level : LogLevel) (source : LogSource) (message : String) (e : Engine α) : Engine α :=
  { e with journal := e.journal.write level source message }

/-- Report an event if somebody listens. -/
def emit (event : SolverEvent) (e : Engine α) : Engine α :=
  if e.hooked then { e with journal := e.journal.report event } else e

/-! ## Changes -/

/-- Drop the solver. -/
def invalidate (cause : SolverError) (e : Engine α) : Engine α :=
  let e := e.log .debug .solver s!"{e.id.text}: solver invalidated: {cause.message}"
  emit (.invalidated cause) { e with
    solver := none
    health := { e.health with
      invalidations := e.health.invalidations + 1
      lastError := some cause } }

/-- Change the solver if there is one, and drop it if it refuses. -/
def apply (change : Attempt SolverError (Solver α) Unit) (e : Engine α) : Engine α :=
  match e.solver with
  | none => e
  | some s =>
    match change s with
    | .ok _ s => { e with solver := some s }
    | .error cause _ => e.invalidate cause

/-- Note that a registry has changed. -/
def markChanged (e : Engine α) : Engine α :=
  { e with outdated := true, dirty := true, rebuildBlocked := false }

/-! ## Reads -/

/-- Take a solver that has been built from the registries. -/
def adopt (s : Solver α) (e : Engine α) : Engine α :=
  let e := e.log .debug .solver
    s!"{e.id.text}: solver rebuilt ({e.vars.size} variables, {e.constraints.size} constraints)"
  emit .rebuilt { e with
    solver := some s
    outdated := true
    health := { e.health with rebuilds := e.health.rebuilds + 1 } }

/-- Note that no solver could be built from the registries. -/
def failRebuild (cause : SolverError) (e : Engine α) : Engine α :=
  let e := e.log .warn .solver
    s!"{e.id.text}: rebuild failed, keeping last solved values: {cause.message}"
  emit (.rebuildFailed cause) { e with
    rebuildBlocked := !e.options.retryFailedRebuild
    health := { e.health with
      failedRebuilds := e.health.failedRebuilds + 1
      lastError := some cause } }

/-- Rebuild the solver if there is none and nothing speaks against trying. -/
def ensureLive (e : Engine α) : Engine α :=
  if e.solver.isSome || e.rebuildBlocked then e
  else
    match replay e.options.steps e.vars e.constraints with
    | .ok s => e.adopt s
    | .error cause => e.failRebuild cause

/-- Read all values from the solver, if there is one and they may be out of date. -/
def readValues (e : Engine α) : Engine α :=
  match e.outdated, e.solver with
  | true, some s =>
    let s := s.updateVariables
    { e with
      solver := some s
      vars := e.vars.mapEntries fun x entry => { entry with solved := s.value x.backing }
      outdated := false }
  | _, _ => e

/-- Bring the solved values up to date as far as possible. -/
def refresh (e : Engine α) : Engine α := e.ensureLive.readValues

end Engine

end BoxLayout
