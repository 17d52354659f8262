-- SUMMARY: Identities: engines, the handles they issue for variables and constraints, and elements.

/-!
# Handles

An engine refers to its variables and constraints by handles. A handle carries
the identity of the engine that issued it, so that handles of different engines
are never confused, and its index in the order of issue.
-/

namespace BoxLayout

/-- The identity of one engine. -/
structure EngineId where
  number : Nat
  deriving DecidableEq, Inhabited

def EngineId.text (e : EngineId) : String := s!"engine#{e.number}"

/-- What a handle refers to. -/
inductive HandleKind where
  | var
  | constraint
  deriving DecidableEq

/-- The word for a kind in a handle's text. -/
def HandleKind.tag : HandleKind → String
  | .var => "var"
  | .constraint => "constraint"

/-- The word for a kind at the beginning of a sentence. -/
def HandleKind.noun : HandleKind → String
  | .var => "Variable"
  | .constraint => "Constraint"

/-- The word for a kind within a sentence. -/
def HandleKind.word : HandleKind → String
  | .var => "variable"
  | .constraint => "constraint"

/-- A reference to a thing of one kind, issued by `owner`. -/
structure Handle (kind : HandleKind) where
  owner : EngineId
  index : Nat
  deriving DecidableEq, Inhabited

def Handle.text {kind : HandleKind} (h : Handle kind) : String :=
  s!"{kind.tag}#{h.index}@{h.owner.number}"

abbrev VariableId := Handle .var

abbrev ConstraintId := Handle .constraint

/-- The identity of an element within its layer. -/
structure ElementId where
  number : Nat
  deriving DecidableEq, Inhabited

def ElementId.text (e : ElementId) : String := s!"element#{e.number}"

end BoxLayout
