import Schematic.Edge

namespace Schematic

/-!
# Pins

Where a node keeps the edges that end on it.

* `FanOut` — the edges that a node drives, in the order of connection;
* `Pins` — a fan-out together with the one edge that may drive the node;
* `attach?`, `detach?` — entering and removing one side of an edge, refused if the node is not on
  that side of it.
-/

/-- The edges that a node drives. -/
structure FanOut where
  /-- The edges, in the order of connection. -/
  outputs : List EdgeId := []
deriving DecidableEq, Repr

namespace FanOut

/-- Enters an edge whose source is `owner`. An edge that is there already is refused. -/
def attach? (owner : NodeId) (edge : Edge) (fanOut : FanOut) : Option FanOut :=
  if edge.source = some owner ∧ edge.id ∉ fanOut.outputs then
    some { outputs := fanOut.outputs ++ [edge.id] }
  else none

/-- Removes an edge whose source is `owner`. An edge that is not there is refused. -/
def detach? (owner : NodeId) (edge : Edge) (fanOut : FanOut) : Option FanOut :=
  if edge.source = some owner ∧ edge.id ∈ fanOut.outputs then
    some { outputs := fanOut.outputs.erase edge.id }
  else none

end FanOut

/-- The edges of a node that can be driven. -/
structure Pins extends FanOut where
  /-- The edge that drives the node. -/
  input : Option EdgeId := none
deriving DecidableEq, Repr

namespace Pins

/-- Enters an edge among the outputs if it can stand there, and otherwise as the input if `owner` is
    its destination. The edge that was the input before is forgotten. -/
def attach? (owner : NodeId) (edge : Edge) (pins : Pins) : Option Pins :=
  match pins.toFanOut.attach? owner edge with
  | some fanOut => some { pins with toFanOut := fanOut }
  | none =>
    if edge.destination = some owner then some { pins with input := some edge.id } else none

/-- Removes an edge from the outputs if it stands there, and otherwise from the input. -/
def detach? (owner : NodeId) (edge : Edge) (pins : Pins) : Option Pins :=
  match pins.toFanOut.detach? owner edge with
  | some fanOut => some { pins with toFanOut := fanOut }
  | none =>
    if edge.destination = some owner ∧ pins.input = some edge.id then
      some { pins with input := none }
    else none

end Pins

end Schematic
