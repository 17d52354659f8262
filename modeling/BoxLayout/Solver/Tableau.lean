-- SUMMARY: The tableau: rows by basic symbol, the objectives, and the rows that wait to be made feasible again.
import BoxLayout.Relation
import BoxLayout.Strength
import BoxLayout.Solver.Row

/-!
# The tableau

A tableau holds a row for each basic symbol, which says what the symbol equals in
terms of the others. The objective is the weighted sum of the error symbols, and
there is a second, artificial one while a row without a subject is being added.

Slack and error symbols stand for numbers from zero up, dummy symbols for zero,
and external symbols for any number. A row of a symbol that is not external
should therefore have no negative constant. Changes that may break this put the
symbol on the list of infeasible rows, the latest first.
-/

namespace BoxLayout

/-- The symbols that a constraint brings into the tableau. -/
structure Tag where
  /-- The symbol by which the constraint is found again. -/
  marker : Symbol
  other : Option Symbol
  deriving DecidableEq

namespace Tag

def symbols (t : Tag) : List Symbol := t.marker :: t.other.toList

/-- The symbols that measure how far the constraint is from holding. -/
def errors (t : Tag) : List Symbol := t.symbols.filter Symbol.isError

/-- The multiples of its symbols that turn a constraint into an equation. -/
def terms {α : Type} [Scalar α] (r : Relation) (t : Tag) : List (Symbol × α) :=
  match r, t.other with
  | .atMost, none => [(t.marker, 1)]
  | .atMost, some violation => [(t.marker, 1), (violation, -1)]
  | .atLeast, none => [(t.marker, -1)]
  | .atLeast, some violation => [(t.marker, -1), (violation, 1)]
  | .equal, none => [(t.marker, 1)]
  | .equal, some below => [(t.marker, -1), (below, 1)]

end Tag

structure Tableau (α : Type) where
  /-- The greatest number that a symbol has been given. -/
  symbolCount : Nat
  rows : OrderedMap Symbol (Row α)
  objective : Row α
  artificial : Option (Row α)
  /-- Symbols whose rows may have a negative constant, latest first. -/
  infeasible : List Symbol

namespace Tableau

variable {α : Type} [Scalar α]

def empty : Tableau α := ⟨0, ∅, .ofConstant 0, none, []⟩

/-! ## Symbols -/

/-- A symbol that has not been used before. -/
def fresh (kind : SymbolKind) (t : Tableau α) : Symbol × Tableau α :=
  (⟨kind, t.symbolCount + 1⟩, { t with symbolCount := t.symbolCount + 1 })

/-- The symbols for a constraint: an inequality has a slack, a required equality a
dummy, and a constraint that is not required may be violated in each direction
that its relation forbids. -/
def freshTag (r : Relation) (required : Bool) (t : Tableau α) : Tag × Tableau α :=
  match r, required with
  | .equal, true =>
    let (dummy, t) := t.fresh .dummy
    (⟨dummy, none⟩, t)
  | .equal, false =>
    let (above, t) := t.fresh .error
    let (below, t) := t.fresh .error
    (⟨above, some below⟩, t)
  | _, true =>
    let (slack, t) := t.fresh .slack
    (⟨slack, none⟩, t)
  | _, false =>
    let (slack, t) := t.fresh .slack
    let (violation, t) := t.fresh .error
    (⟨slack, some violation⟩, t)

/-! ## Rows -/

def setRow (s : Symbol) (row : Row α) (t : Tableau α) : Tableau α :=
  { t with rows := t.rows.insert s row }

def dropRow (s : Symbol) (t : Tableau α) : Tableau α :=
  { t with rows := t.rows.swapErase s }

/-- Remove a symbol from all rows and from the objective. -/
def forget (s : Symbol) (t : Tableau α) : Tableau α :=
  { t with rows := t.rows.mapValues fun _ row => row.remove s, objective := t.objective.remove s }

/-- Add a multiple of a symbol to a row over non-basic symbols: a basic symbol
enters as its row. -/
def addTo (t : Tableau α) (row : Row α) (s : Symbol) (k : α) : Row α :=
  match t.rows.get? s with
  | some basic => row.addRow basic k
  | none => row.addSymbol s k

/-- Put symbols on the list of infeasible rows, in the order given. -/
def queue (t : Tableau α) (ss : List Symbol) : Tableau α :=
  { t with infeasible := ss.reverse ++ t.infeasible }

/-- The entry of a symbol that must not be negative but whose constant is. -/
def isNegative (e : Symbol × Row α) : Bool := !e.1.isExternal && decide (e.2.constant < 0)

/-- Replace a symbol by a row everywhere. -/
def substitute (s : Symbol) (row : Row α) (t : Tableau α) : Tableau α :=
  let rows := t.rows.mapValues fun _ r => r.substitute s row
  queue { t with
    rows := rows
    objective := t.objective.substitute s row
    artificial := t.artificial.map (·.substitute s row) }
    ((rows.entries.filter isNegative).map Prod.fst)

/-- Make a symbol basic with the given row. -/
def install (s : Symbol) (row : Row α) (t : Tableau α) : Tableau α :=
  (t.substitute s row).setRow s row

/-- Add to the constant of one row. -/
def shiftRow (s : Symbol) (row : Row α) (d : α) (t : Tableau α) : Tableau α :=
  let row := row.addConstant d
  let t := t.setRow s row
  if row.constant < 0 then t.queue [s] else t

/-- Move the target of an edit constraint by `d`. If neither of its symbols is
basic, each row moves with its coefficient of the marker. -/
def shiftEdit (tag : Tag) (d : α) (t : Tableau α) : Tableau α :=
  match t.rows.get? tag.marker, tag.other.bind fun s => (t.rows.get? s).map (s, ·) with
  | some row, _ => t.shiftRow tag.marker row (-d)
  | none, some (other, row) => t.shiftRow other row d
  | none, none =>
    let moved (row : Row α) : Option (Row α) :=
      let k := row.coefficient tag.marker
      if k == 0 then none else some (row.addConstant (d * k))
    let negative (e : Symbol × Row α) : Bool :=
      (moved e.2).any fun row => isNegative (e.1, row)
    let rows := t.rows.mapValues fun _ row => (moved row).getD row
    queue { t with rows := rows } ((t.rows.entries.filter negative).map Prod.fst)

/-! ## The objective -/

/-- Add a multiple of a symbol to the objective. A basic symbol enters as its row. -/
def addToObjective (s : Symbol) (k : α) (t : Tableau α) : Tableau α :=
  { t with objective := t.addTo t.objective s k }

end Tableau

end BoxLayout
