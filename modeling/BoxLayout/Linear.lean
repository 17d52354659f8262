-- SUMMARY: Linear expressions: a constant and an ordered list of terms, their arithmetic and their value.
import BoxLayout.Scalar

/-!
# Linear expressions

A `Linear ν α` is `constant + Σ coefficient * unknown`, with unknowns in `ν` and
numbers in `α`. Terms keep the order in which they were added, and an unknown may
occur in several of them: nothing is merged or dropped before an expression
reaches the solver. So a term with coefficient zero still mentions its unknown.

Callers write expressions over handles and the solver reads them over its own
variables; `resolve` goes from one to the other.
-/

namespace BoxLayout

/-- One `coefficient * unknown`. -/
structure Term (ν α : Type) where
  unknown : ν
  coefficient : α
  deriving BEq

/-- A constant and an ordered list of terms. -/
structure Linear (ν α : Type) where
  constant : α
  terms : List (Term ν α)
  deriving BEq

namespace Linear

variable {ν μ ε α : Type} [Scalar α]

/-! ## Building -/

def ofConstant (x : α) : Linear ν α := ⟨x, []⟩

def ofUnknown (u : ν) : Linear ν α := ⟨0, [⟨u, 1⟩]⟩

instance : Inhabited (Linear ν α) := ⟨ofConstant 0⟩

/-- An expression from its constant and its terms in order. -/
def ofTerms (constant : α) (terms : List (ν × α)) : Linear ν α :=
  ⟨constant, terms.map fun t => ⟨t.1, t.2⟩⟩

def addTerm (e : Linear ν α) (u : ν) (x : α) : Linear ν α :=
  { e with terms := e.terms ++ [⟨u, x⟩] }

def withConstant (e : Linear ν α) (x : α) : Linear ν α :=
  { e with constant := x }

/-! ## Arithmetic -/

def add (e f : Linear ν α) : Linear ν α :=
  ⟨e.constant + f.constant, e.terms ++ f.terms⟩

def scale (e : Linear ν α) (k : α) : Linear ν α :=
  ⟨e.constant * k, e.terms.map fun t => ⟨t.unknown, t.coefficient * k⟩⟩

/-- The opposite expression, as a multiple by `-1`. -/
def neg (e : Linear ν α) : Linear ν α := e.scale (-1)

/-- The difference, as a sum with the opposite. -/
def sub (e f : Linear ν α) : Linear ν α := e.add f.neg

def addConstant (e : Linear ν α) (x : α) : Linear ν α :=
  { e with constant := e.constant + x }

def subConstant (e : Linear ν α) (x : α) : Linear ν α := e.addConstant (-x)

/-- The sum with a multiple of another expression. -/
def addScaled (e f : Linear ν α) (k : α) : Linear ν α := e.add (f.scale k)

instance : Add (Linear ν α) := ⟨add⟩

instance : Neg (Linear ν α) := ⟨neg⟩

instance : Sub (Linear ν α) := ⟨sub⟩

/-! ## Reading -/

/-- The unknowns in term order, with repetitions. -/
def unknowns (e : Linear ν α) : List ν := e.terms.map Term.unknown

/-- Some term is about this unknown, whatever its coefficient. -/
def mentions [DecidableEq ν] (e : Linear ν α) (u : ν) : Bool :=
  e.terms.any fun t => t.unknown = u

def isConstant (e : Linear ν α) : Bool := e.terms.isEmpty

/-- The constant and all coefficients are finite. -/
def isFinite (e : Linear ν α) : Bool :=
  Scalar.isFinite e.constant && e.terms.all fun t => Scalar.isFinite t.coefficient

/-- Replace every unknown, in term order. The first unknown that fails decides the error. -/
def resolve (f : ν → Except ε μ) (e : Linear ν α) : Except ε (Linear μ α) := do
  let terms ← e.terms.mapM fun t => do return ⟨← f t.unknown, t.coefficient⟩
  return ⟨e.constant, terms⟩

/-- The value of an expression where `v` gives the values of the unknowns. -/
def eval (v : ν → α) (e : Linear ν α) : α :=
  e.constant + (e.terms.map fun t => t.coefficient * v t.unknown).sum

end Linear

end BoxLayout
