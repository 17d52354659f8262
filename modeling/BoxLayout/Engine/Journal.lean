-- SUMMARY: What an engine records about its own recovery: events, counters and log records.
import BoxLayout.Solver.Error

/-!
# Journals

An engine that loses its solver and rebuilds it says so in three ways: by events,
which it keeps only while somebody listens, by counters, and by log records. The
caller takes events and records from the journal when it likes.
-/

namespace BoxLayout

/-- Something an engine did to its solver. -/
inductive SolverEvent where
  /-- The solver refused a change and was dropped. -/
  | invalidated (cause : SolverError)
  /-- A new solver was built from the registries. -/
  | rebuilt
  /-- No solver could be built from the registries. -/
  | rebuildFailed (cause : SolverError)
  deriving DecidableEq

/-- How often an engine lost its solver and rebuilt it. -/
structure Health where
  invalidations : Nat
  rebuilds : Nat
  failedRebuilds : Nat
  /-- The cause of the latest loss or failed rebuild. -/
  lastError : Option SolverError
  deriving DecidableEq

def Health.initial : Health := ⟨0, 0, 0, none⟩

inductive LogLevel where
  | trace
  | debug
  | warn
  deriving DecidableEq

/-- The part of the library that wrote a record. -/
inductive LogSource where
  | solver
  | layer
  deriving DecidableEq

structure LogRecord where
  level : LogLevel
  source : LogSource
  message : String
  deriving DecidableEq

/-- Events and records in the order in which they were made. -/
structure Journal where
  events : List SolverEvent
  records : List LogRecord

namespace Journal

def empty : Journal := ⟨[], []⟩

def write (j : Journal) (level : LogLevel) (source : LogSource) (message : String) : Journal :=
  { j with records := j.records ++ [⟨level, source, message⟩] }

def report (j : Journal) (event : SolverEvent) : Journal :=
  { j with events := j.events ++ [event] }

end Journal

end BoxLayout
