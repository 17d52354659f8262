-- SUMMARY: Why an engine refuses a call: handles it does not know or did not issue, and variables in use.
import BoxLayout.Handle

/-!
# Engine errors

An engine refuses a call only for the handles in it. What its solver refuses is
never reported to the caller: the engine recovers from that by itself.
-/

namespace BoxLayout

/-- Why an engine refused a call. -/
inductive EngineError where
  /-- The handle is the engine's own, but nothing is registered under it. -/
  | unknown (kind : HandleKind) (handle : Handle kind)
  /-- The handle was issued by another engine. -/
  | foreign (kind : HandleKind) (handle : Handle kind) (engine : EngineId)
  /-- The variable cannot be removed while a constraint mentions it. -/
  | variableInUse (x : VariableId) (constraint : ConstraintId)
  deriving DecidableEq

def EngineError.message : EngineError → String
  | unknown kind h => s!"Unknown {kind.word}: {h.text}"
  | foreign kind h engine => s!"{kind.noun} {h.text} belongs to {h.owner.text}, not {engine.text}"
  | variableInUse x c => s!"Variable {x.text} is still referenced by {c.text}"

end BoxLayout
