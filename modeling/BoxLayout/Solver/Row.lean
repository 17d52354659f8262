-- SUMMARY: Symbols of the tableau and rows over them, with substitution and pivoting of a single row.
import BoxLayout.OrderedMap
import BoxLayout.Scalar
import BoxLayout.Solver.Error

/-!
# Rows

A row is `constant + Σ coefficient * symbol`. In the tableau a row belongs to a
basic symbol and says what that symbol equals.

The cells of a row are ordered, because a search for a pivot takes the first cell
that qualifies. A coefficient that becomes nearly zero is dropped, and the last
cell moves into its place.
-/

namespace BoxLayout

/-- What a symbol stands for. -/
inductive SymbolKind where
  /-- An unknown of the caller. -/
  | external
  /-- The room that an inequality leaves. -/
  | slack
  /-- The violation of a constraint that is not required. -/
  | error
  /-- Zero, marking a required equality. -/
  | dummy
  deriving DecidableEq

/-- An unknown of the tableau. -/
structure Symbol where
  kind : SymbolKind
  number : Nat
  deriving DecidableEq

namespace Symbol

def isExternal (s : Symbol) : Bool := s.kind = .external

def isError (s : Symbol) : Bool := s.kind = .error

def isDummy (s : Symbol) : Bool := s.kind = .dummy

/-- A symbol that stands for a number from zero up. -/
def isPivotable (s : Symbol) : Bool := s.kind = .slack || s.kind = .error

end Symbol

/-- A constant and a coefficient for each symbol that occurs. -/
structure Row (α : Type) where
  constant : α
  cells : OrderedMap Symbol α

namespace Row

variable {α : Type} [Scalar α]

def ofConstant (x : α) : Row α := ⟨x, ∅⟩

/-- The coefficient of a symbol, zero if it does not occur. -/
def coefficient (r : Row α) (s : Symbol) : α := (r.cells.get? s).getD 0

/-- The value of a row where `v` gives the values of the symbols. -/
def eval (v : Symbol → α) (r : Row α) : α :=
  r.constant + (r.cells.entries.map fun c => c.2 * v c.1).sum

/-! ## Adding to a row -/

def addConstant (r : Row α) (x : α) : Row α := { r with constant := r.constant + x }

/-- Add a multiple of a symbol. -/
def addSymbol (r : Row α) (s : Symbol) (k : α) : Row α :=
  let sum := r.coefficient s + k
  { r with cells := if nearZero sum then r.cells.swapErase s else r.cells.insert s sum }

/-- Add a multiple of another row, cell by cell. -/
def addRow (r other : Row α) (k : α) : Row α :=
  other.cells.entries.foldl (fun r cell => r.addSymbol cell.1 (cell.2 * k))
    (r.addConstant (other.constant * k))

def remove (r : Row α) (s : Symbol) : Row α := { r with cells := r.cells.swapErase s }

def negate (r : Row α) : Row α := ⟨-r.constant, r.cells.mapValues fun _ x => -x⟩

/-! ## Pivoting -/

/-- Replace a symbol by the row that it equals. -/
def substitute (r : Row α) (s : Symbol) (row : Row α) : Row α :=
  match r.cells.get? s with
  | none => r
  | some k => (r.remove s).addRow row k

/-- Read `0 = row` as an equation for one symbol: the row that the symbol equals. -/
def solveFor (r : Row α) (s : Symbol) : Except SolverError (Row α) :=
  match r.cells.get? s with
  | none => throw (.internal .pivotMissing)
  | some k =>
    let m := -1 / k
    return ⟨r.constant * m, (r.cells.swapErase s).mapValues fun _ x => x * m⟩

/-- Turn the row of a basic symbol into the row of a symbol that occurs in it. -/
def exchange (r : Row α) (basic entering : Symbol) : Except SolverError (Row α) :=
  (r.addSymbol basic (-1)).solveFor entering

/-! ## Searching -/

def allDummies (r : Row α) : Bool := r.cells.keys.all Symbol.isDummy

/-- The first slack or error symbol. -/
def pivotable? (r : Row α) : Option Symbol := r.cells.keys.find? Symbol.isPivotable

/-- The first symbol whose increase lowers the row. -/
def descent? (r : Row α) : Option Symbol :=
  (r.cells.entries.find? fun c => !c.1.isDummy && decide (c.2 < 0)).map Prod.fst

end Row

end BoxLayout
