import Schematic.Edge
import Schematic.Tag

namespace Schematic

/-!
# The journal of a design

What happened to a design, event by event.

* `Event` — a node or an edge that came or went;
* `Event.level`, `Event.text` — its written form.
-/

/-- How much detail an event belongs to. -/
inductive Level where
  | trace
  | debug
deriving DecidableEq, Repr

/-- The written form of a level. -/
def Level.name : Level → String
  | .trace => "TRACE"
  | .debug => "DEBUG"

/-- Something that happened to a design. -/
inductive Event where
  /-- A node was made. -/
  | created (id : NodeId) (tag : Tag) (name type : String)
  /-- A node was made as the copy of another. -/
  | copied (id template : NodeId)
  /-- The driver of a node is about to be replaced. -/
  | replacing (node : NodeId) (edge : EdgeId)
  /-- An edge was made. -/
  | connected (edge : EdgeId) (source destination : NodeId) (name : String)
  /-- An edge was removed. -/
  | disconnected (edge : EdgeId) (name : String)
  /-- A design was built from a netlist. -/
  | built (name : String) (nodes edges : Nat)
deriving DecidableEq, Repr

namespace Event

/-- Single nodes are details. -/
def level : Event → Level
  | .created .. | .copied .. => .trace
  | _ => .debug

/-- The wording of an event. -/
def text : Event → String
  | .created id tag name type => s!"{id.label}: new {tag.name} '{name}' of type {type}"
  | .copied id template => s!"{id.label}: copy of {template.label}"
  | .replacing node edge => s!"{node.label}: replacing driver edge {edge.label}"
  | .connected edge source destination name =>
    s!"{edge.label}: connected {source.label} -> {destination.label} ({name})"
  | .disconnected edge name => s!"{edge.label}: disconnected {name}"
  | .built name nodes edges => s!"built graph '{name}': {nodes} nodes, {edges} edges"

/-- The level and the wording. -/
def line (event : Event) : String := event.level.name ++ " " ++ event.text

end Event

end Schematic
