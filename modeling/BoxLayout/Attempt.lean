-- SUMMARY: State changes that may fail and keep what they changed before failing.

/-!
# Attempts

An attempt runs on a state and either answers or fails. When it fails, the state
stays as the failing step left it: nothing is rolled back. The solver, the engine
and the layer are all driven this way, each with its own state and errors.
-/

namespace BoxLayout

/-- A change of a state `σ` that may fail with an `ε`. -/
abbrev Attempt (ε σ : Type) : Type → Type := EStateM ε σ

namespace Attempt

variable {ε ε' σ τ β : Type}

/-- Run an attempt on a part of a larger state. -/
def onPart (part : σ → τ) (replace : τ → σ → σ) (m : Attempt ε τ β) : Attempt ε σ β := fun s =>
  match m (part s) with
  | .ok b t => .ok b (replace t s)
  | .error e t => .error e (replace t s)

/-- Express the errors of an attempt in other words. -/
def mapError (f : ε → ε') (m : Attempt ε σ β) : Attempt ε' σ β := fun s =>
  match m s with
  | .ok b s => .ok b s
  | .error e s => .error (f e) s

/-- Run an attempt and answer how it ended, be it well or not. -/
def outcome (m : Attempt ε σ β) : Attempt ε' σ (Except ε β) := fun s =>
  match m s with
  | .ok b s => .ok (.ok b) s
  | .error e s => .ok (.error e) s

/-- Repeat a step while it answers `true`. Fails with `out` when no step is left to take. -/
def loop (step : Attempt ε σ Bool) (out : ε) : Nat → Attempt ε σ Unit
  | 0 => throw out
  | n + 1 => do
    if ← step then
      loop step out n

end Attempt

end BoxLayout
