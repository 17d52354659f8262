-- SUMMARY: Layout layers: elements, gated constraints, orientation changes and the per-frame update.
import BoxLayout.Edge
import BoxLayout.Engine
import BoxLayout.Engine.Text
import BoxLayout.Orientation

/-!
# Layers

A layer is a surface with an engine of its own. The layer's box is pinned at the
origin with a required size, so that elements can be constrained against its
edges. An element is a box of four variables.

A constraint may be gated by an orientation. It is then enabled only while the
layer has that orientation. A change of orientation switches the gates first, is
committed next, and is told to the listeners last.

The engine is open to callers of the layer, who may remove what the layer tracks.
The layer notices when it meets such a constraint, and forgets it.
-/

namespace BoxLayout

/-- Why a layer refused a call. -/
inductive LayerError where
  | unknownElement (element : ElementId)
  | engine (cause : EngineError)
  deriving DecidableEq

def LayerError.message : LayerError → String
  | unknownElement element => s!"Unknown element: {element.text}"
  | engine cause => s!"Constraint error: {cause.message}"

/-- What a listener to orientation changes is known by. -/
structure ListenerId where
  number : Nat
  deriving DecidableEq

structure Layer (α : Type) where
  engine : Engine α
  /-- The variables of the layer's own box. -/
  frame : Box VariableId
  orientation : Orientation
  elements : OrderedMap ElementId (Box VariableId)
  nextElement : Nat
  /-- The constraints made through the layer, with their gates. -/
  constraints : OrderedMap ConstraintId (Option Orientation)
  listeners : List ListenerId
  /-- Who has been told which orientation, in order, as far as not yet taken. -/
  calls : List (ListenerId × Orientation)

namespace Layer

variable {α β : Type} [Scalar α]

/-! ## The layer's own box -/

/-- Create the four variables of a box. -/
def createBox (b : Box α) (p : Priority) (e : Engine α) : Box VariableId × Engine α :=
  let (x, e) := e.createVariable b.x p
  let (y, e) := e.createVariable b.y p
  let (width, e) := e.createVariable b.width p
  let (height, e) := e.createVariable b.height p
  (⟨x, y, width, height⟩, e)

def create (id : EngineId) (options : EngineOptions) (width height : α) : Layer α :=
  let (frame, engine) := createBox ⟨0, 0, width, height⟩ .p0 (.create id options)
  { engine := engine
    frame := frame
    orientation := .ofSize width height
    elements := ∅
    nextElement := 0
    constraints := ∅
    listeners := []
    calls := [] }

/-- The layer for which nothing is asked. -/
def default (id : EngineId) : Layer α :=
  create id .default ((800 : Nat) : α) ((600 : Nat) : α)

/-- Run an attempt on the engine. -/
def onEngine (m : Attempt EngineError (Engine α) β) : Attempt LayerError (Layer α) β :=
  Attempt.mapError .engine <| Attempt.onPart Layer.engine (fun e l => { l with engine := e }) m

/-- Run an attempt on the engine and answer how it ended. -/
def tryEngine (m : Attempt EngineError (Engine α) β) :
    Attempt LayerError (Layer α) (Except EngineError β) :=
  Attempt.onPart Layer.engine (fun e l => { l with engine := e }) m.outcome

def log (level : LogLevel) (message : String) (l : Layer α) : Layer α :=
  { l with engine := l.engine.log level .layer message }

/-! ## Orientation -/

def listen (who : ListenerId) (l : Layer α) : Layer α :=
  { l with listeners := l.listeners ++ [who] }

/-- Switch a gated constraint. Answers whether it is no longer registered. -/
def switchGate (o : Orientation) (c : ConstraintId) (gate : Orientation) :
    Attempt LayerError (Layer α) Bool := do
  let enabled : Bool := gate = o
  modify (log .trace s!"{c.text} enabled = {boolText enabled}")
  match ← tryEngine (Engine.setEnabled c enabled) with
  | .ok _ => return false
  | .error (.unknown .constraint _) => return true
  | .error cause => throw (.engine cause)

/-- Switch gated constraints in order. Answers those that are no longer registered. -/
def switchGates (o : Orientation) :
    List (ConstraintId × Orientation) → Attempt LayerError (Layer α) (List ConstraintId)
  | [] => return []
  | (c, gate) :: rest => do
    let gone ← switchGate o c gate
    let others ← switchGates o rest
    return if gone then c :: others else others

/-- The gated constraints with their gates, in order. -/
def gated (l : Layer α) : List (ConstraintId × Orientation) :=
  l.constraints.entries.filterMap fun e => e.2.map (e.1, ·)

def forget (c : ConstraintId) (l : Layer α) : Layer α :=
  { l with constraints := l.constraints.erase c }

/-- Take an orientation and tell the listeners. -/
def commit (o : Orientation) (l : Layer α) : Layer α :=
  { l with orientation := o, calls := l.calls ++ l.listeners.map (·, o) }

/-- Set the orientation, whatever the size. The present one again changes nothing. -/
def setOrientation (o : Orientation) : Attempt LayerError (Layer α) Unit := do
  let l ← get
  if l.orientation = o then
    return
  modify (log .trace s!"orientation {l.orientation.text} -> {o.text}")
  let gone ← switchGates o l.gated
  gone.forM fun c => do
    modify (log .debug s!"dropping removed {c.text}")
    modify (forget c)
  modify (commit o)

/-- Set the size and the orientation that it implies. -/
def resize (width height : α) : Attempt LayerError (Layer α) Unit := do
  onEngine (Engine.suggest (← get).frame.width width)
  onEngine (Engine.suggest (← get).frame.height height)
  setOrientation (.ofSize width height)

def size (l : Layer α) : Except LayerError (α × α) := do
  let width ← (l.engine.targetOf l.frame.width).mapError .engine
  let height ← (l.engine.targetOf l.frame.height).mapError .engine
  return (width, height)

/-! ## Elements -/

/-- Add an element that starts at a box. The priority is that of its four variables. -/
def addElement (b : Box α) (p : Priority) (l : Layer α) : ElementId × Layer α :=
  let id : ElementId := ⟨l.nextElement⟩
  let (vars, engine) := createBox b p l.engine
  (id, { l with
    engine := engine
    elements := l.elements.insert id vars
    nextElement := l.nextElement + 1 })

/-- The variables of an element. -/
def element (l : Layer α) (id : ElementId) : Except LayerError (Box VariableId) :=
  match l.elements.get? id with
  | some b => .ok b
  | none => .error (.unknownElement id)

/-- An edge of an element, or of the layer itself. -/
def edge (l : Layer α) (id : Option ElementId) (edge : Edge) :
    Except LayerError (Linear VariableId α) :=
  match id with
  | none => .ok (edge.expression l.frame)
  | some id => (l.element id).map edge.expression

/-- Suggest a box for an element. -/
def move (id : ElementId) (b : Box α) : Attempt LayerError (Layer α) Unit := do
  let vars ← ofExcept ((← get).element id)
  onEngine (Engine.suggest vars.x b.x)
  onEngine (Engine.suggest vars.y b.y)
  onEngine (Engine.suggest vars.width b.width)
  onEngine (Engine.suggest vars.height b.height)

/-- The solved box of an element. -/
def bounds (id : ElementId) : Attempt LayerError (Layer α) (Box α) := do
  let vars ← ofExcept ((← get).element id)
  let x ← onEngine (Engine.read vars.x)
  let y ← onEngine (Engine.read vars.y)
  let width ← onEngine (Engine.read vars.width)
  let height ← onEngine (Engine.read vars.height)
  return ⟨x, y, width, height⟩

/-- The solved boxes of some elements, in order. -/
def boundsOf : List ElementId → Attempt LayerError (Layer α) (List (ElementId × Box α))
  | [] => return []
  | id :: rest => do
    let b ← bounds id
    return (id, b) :: (← boundsOf rest)

/-- The solved boxes of all elements, or nothing if nothing changed since this was
last asked. -/
def update : Attempt LayerError (Layer α) (Option (List (ElementId × Box α))) := do
  if ← onEngine (modifyGet Engine.takeDirty) then
    return some (← boundsOf (← get).elements.keys)
  else
    return none

/-! ## Constraints -/

/-- Add a constraint, with a gate or without. -/
def constrain (gate : Option Orientation) (d : Definition α) :
    Attempt LayerError (Layer α) ConstraintId := do
  let l ← get
  let enabled := gate.all fun o => o = l.orientation
  let c ← onEngine (Engine.createConstraint d enabled)
  modify fun l => { l with constraints := l.constraints.insert c gate }
  return c

/-- Remove a constraint. -/
def release (c : ConstraintId) : Attempt LayerError (Layer α) Unit := do
  modify (forget c)
  onEngine (Engine.removeConstraint c)

/-- Remove an element and every constraint that mentions one of its variables. -/
def removeElement (id : ElementId) : Attempt LayerError (Layer α) Unit := do
  let vars ← ofExcept ((← get).element id)
  vars.toList.forM fun x => do
    let mentioning ← onEngine (do ofExcept ((← get).referencing x))
    mentioning.forM release
  vars.toList.forM fun x => onEngine (Engine.removeVariable x)
  modify fun l => { l with elements := l.elements.erase id }

/-! ## Taking what has been recorded -/

def takeCalls (l : Layer α) : List (ListenerId × Orientation) × Layer α :=
  (l.calls, { l with calls := [] })

def debugText (l : Layer α) : String :=
  recordText "Layer"
    [("solver", l.engine.debugText), ("orientation", l.orientation.text),
      ("elements", toString l.elements.size), ("constraints", toString l.constraints.size),
      ("listeners", toString l.listeners.length)] false

end Layer

end BoxLayout
