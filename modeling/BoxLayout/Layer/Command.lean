-- SUMMARY: The calls of a layer as data, with their answers.
import BoxLayout.Engine.Command
import BoxLayout.Layer

/-!
# Layer commands

A command is one call of a layer, or one call of its engine past the layer.
-/

namespace BoxLayout.Layer

/-- A call of a layer. -/
inductive Command (α : Type) where
  | orientation
  | setOrientation (o : Orientation)
  | resize (width height : α)
  | size
  | listen (who : ListenerId)
  | addElement (b : Box α) (p : Priority)
  | removeElement (id : ElementId)
  | element (id : ElementId)
  | elements
  | move (id : ElementId) (b : Box α)
  | bounds (id : ElementId)
  | update
  | constrain (gate : Option Orientation) (d : Definition α)
  | release (c : ConstraintId)
  | engine (command : Engine.Command α)

/-- What a call answers. -/
inductive Reply (α : Type) where
  | done
  | orientation (o : Orientation)
  | size (width height : α)
  | element (id : ElementId)
  | elements (ids : List ElementId)
  | handles (b : Box VariableId)
  | bounds (b : Box α)
  | frame (boxes : Option (List (ElementId × Box α)))
  | constraint (c : ConstraintId)
  | engine (reply : Engine.Reply α)

namespace Command

variable {α : Type} [Scalar α]

def run : Command α → Attempt LayerError (Layer α) (Reply α)
  | orientation => return .orientation (← get).orientation
  | setOrientation o => do
    Layer.setOrientation o
    return .done
  | resize width height => do
    Layer.resize width height
    return .done
  | size => do
    let (width, height) ← ofExcept (← get).size
    return .size width height
  | listen who => do
    modify (Layer.listen who)
    return .done
  | addElement b p => return .element (← modifyGet (Layer.addElement b p))
  | removeElement id => do
    Layer.removeElement id
    return .done
  | element id => return .handles (← ofExcept ((← get).element id))
  | elements => return .elements (← get).elements.keys
  | move id b => do
    Layer.move id b
    return .done
  | bounds id => return .bounds (← Layer.bounds id)
  | update => return .frame (← Layer.update)
  | constrain gate d => return .constraint (← Layer.constrain gate d)
  | release c => do
    Layer.release c
    return .done
  | engine command => return .engine (← onEngine command.run)

/-- The answer of a command and the layer after it. -/
def perform (c : Command α) (l : Layer α) : Except LayerError (Reply α) × Layer α :=
  match c.run l with
  | .ok r l => (.ok r, l)
  | .error err l => (.error err, l)

end Command

/-- The layer after a history. -/
def after {α : Type} [Scalar α] (l : Layer α) (history : List (Command α)) : Layer α :=
  history.foldl (fun l c => (c.perform l).2) l

end BoxLayout.Layer
