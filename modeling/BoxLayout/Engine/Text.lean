-- SUMMARY: The one-line description of an engine for diagnosis.
import BoxLayout.Engine.Recovery

/-!
# Describing an engine

The description names the fields that matter for diagnosis and leaves out the
rest, which two dots stand for.
-/

namespace BoxLayout

/-- The text of a record: its name and its fields in braces. -/
def recordText (name : String) (fields : List (String × String)) (rest : Bool) : String :=
  let fields := fields.map fun f => s!"{f.1}: {f.2}"
  let fields := if rest then fields ++ [".."] else fields
  name ++ " \x7b " ++ ", ".intercalate fields ++ " \x7d"

def boolText (b : Bool) : String := if b then "true" else "false"

/-- The text of a cause of failure, with the fault in quotes where there is one. -/
def SolverError.debugText : SolverError → String
  | .internal fault => SolverError.name (.internal fault) ++ "(\"" ++ fault.text ++ "\")"
  | e => e.name

def Health.debugText (h : Health) : String :=
  let lastError :=
    match h.lastError with
    | some e => s!"Some({e.debugText})"
    | none => "None"
  recordText "SolverHealth"
    [("invalidations", toString h.invalidations), ("rebuilds", toString h.rebuilds),
      ("failed_rebuilds", toString h.failedRebuilds), ("last_error", lastError)] false

def Engine.debugText {α : Type} (e : Engine α) : String :=
  recordText "LayoutSolver"
    [("id", s!"EngineId({e.id.number})"), ("live", boolText e.solver.isSome),
      ("variables", toString e.vars.size), ("constraints", toString e.constraints.size),
      ("dirty", boolText e.dirty), ("health", e.health.debugText)] true

end BoxLayout
