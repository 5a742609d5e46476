import Schematic.Design.Basic

namespace Schematic.Design

/-!
# Changes to a design

The single steps from which all changes are made. None of them looks whether it makes sense.

* `insert`, `insertUnnamed` — a new node;
* `updateNode`, `attach`, `detach` — a change to one node;
* `link`, `unlink` — an edge with both its sides.
-/

/-- Adds a node, whose place is the number of nodes so far, and enters its name. -/
def insert (design : Design) (naming : Naming) (node : Node) : Design :=
  let id := design.nodeCount
  match naming with
  | .declared =>
    { design with
      nodes := design.nodes.push node, declared := design.declared.register node.name id }
  | .derived =>
    { design with
      nodes := design.nodes.push node, derived := design.derived.register node.name id }

/-- Adds a node that cannot be found by its name. -/
def insertUnnamed (design : Design) (node : Node) : Design :=
  { design with nodes := design.nodes.push node }

/-- Notes the shared literal of a truth value. -/
def share (design : Design) (value : Bool) (id : NodeId) : Design :=
  if value then { design with trueLiteral := some id } else { design with falseLiteral := some id }

/-- Changes the node in a place, if there is one. -/
def updateNode (design : Design) (id : NodeId) (change : Node → Node) : Design :=
  { design with nodes := design.nodes.modify id change }

/-- Enters one side of an edge on a node, if the node takes it. -/
def attach (design : Design) (edge : Edge) (id : NodeId) : Design :=
  design.updateNode id fun node => (node.attach? id edge).getD node

/-- Removes one side of an edge from a node, if the node has it. -/
def detach (design : Design) (edge : Edge) (id : NodeId) : Design :=
  design.updateNode id fun node => (node.detach? id edge).getD node

/-- The edge that will be made next between two nodes, named after both. -/
def nextEdge (design : Design) (source destination : NodeId) (sourceName destinationName : String) :
    Edge where
  id := design.edgeTable.size
  name := sourceName ++ "_to_" ++ destinationName
  source := source
  destination := destination

/-- Puts an edge behind the edge table and enters it on its source and then on its destination. -/
def link (design : Design) (edge : Edge) (source destination : NodeId) : Design :=
  let design := (design.attach edge source).attach edge destination
  { design with edgeTable := design.edgeTable.push (some edge) }

/-- Empties the place of an edge and removes it from its source and then from its destination. -/
def unlink (design : Design) (id : EdgeId) (edge : Edge) : Design :=
  let design := { design with edgeTable := design.edgeTable.setIfInBounds id none }
  (edge.source.toList ++ edge.destination.toList).foldl (·.detach edge) design

end Schematic.Design
