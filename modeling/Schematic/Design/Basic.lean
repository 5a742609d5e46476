import Schematic.Node
import Schematic.Policy
import Schematic.Registry
import Schematic.TypeTable

namespace Schematic

/-!
# Designs

A design is a table of nodes and a table of edges that join them. A node refers to edges, and an
edge to nodes, by their places in the tables.

* `Design` — the tables, with the types and the names of the nodes;
* `Design.find?` — a node by its name;
* `Design.edge?`, `Design.edges` — the edges that are connected;
* `Design.driver?`, `Design.sinks` — the neighbours of a node;
* `Design.resolve?` — the value of a parameter.
-/

/-- How a node comes by its name. -/
inductive Naming where
  /-- Chosen for it. -/
  | declared
  /-- Made up from a value or from operands. -/
  | derived
deriving DecidableEq, Repr

/-- A design. -/
structure Design where
  /-- The name of the design. -/
  name : String
  /-- The choices under which it is built and checked. -/
  policy : Policy
  /-- The types that its nodes can have. -/
  types : TypeTable := {}
  /-- The nodes, in the order in which they were made. -/
  nodes : Array Node := #[]
  /-- The edges, in the order in which they were made. A removed edge leaves its place empty. -/
  edgeTable : Array (Option Edge) := #[]
  /-- The first node of each chosen name. -/
  declared : Registry := {}
  /-- The first node of each made-up name. -/
  derived : Registry := {}
  /-- The literal that all uses of the constant `true` share, once there is a use. -/
  trueLiteral : Option NodeId := none
  /-- The literal that all uses of the constant `false` share, once there is a use. -/
  falseLiteral : Option NodeId := none

namespace Design

/-! ### Nodes -/

/-- The number of nodes, which is the place of the next one. -/
def nodeCount (design : Design) : Nat := design.nodes.size

/-- The node in a place. -/
def node? (design : Design) (id : NodeId) : Option Node := design.nodes[id]?

/-- The node in a place. A place without a node is refused. -/
def node (design : Design) (id : NodeId) : Except Error Node :=
  match design.node? id with
  | some node => .ok node
  | none => .error (.invalidNodeId id)

/-- All nodes with their places, in order. -/
def places (design : Design) : List (NodeId × Node) :=
  design.nodes.toList.zipIdx.map fun place => (place.2, place.1)

/-- The nodes that `select` holds of, with their places, in order. -/
def placesWhere (design : Design) (select : Node → Bool) : List (NodeId × Node) :=
  design.places.filter fun place => select place.2

/-- The places of the nodes of one variant. -/
def withTag (design : Design) (tag : Tag) : List NodeId :=
  (design.placesWhere (·.tag = tag)).map (·.1)

/-- The node of the given name: the first one for which the name was chosen, or else the first one
    whose name was made up. -/
def find? (design : Design) (name : String) : Option NodeId :=
  (design.declared.find? name).or (design.derived.find? name)

/-- The shared literal of a truth value. -/
def shared? (design : Design) : Bool → Option NodeId
  | true => design.trueLiteral
  | false => design.falseLiteral

/-! ### Edges -/

/-- The connected edge in a place. -/
def edge? (design : Design) (id : EdgeId) : Option Edge := design.edgeTable[id]?.join

/-- The connected edges, in order. -/
def edges (design : Design) : List Edge := design.edgeTable.toList.filterMap id

/-- The number of connected edges. -/
def edgeCount (design : Design) : Nat := design.edges.length

/-- The source of an edge. -/
def source? (design : Design) (id : EdgeId) : Option NodeId :=
  (design.edge? id).bind (·.source)

/-- The destination of an edge. -/
def destination? (design : Design) (id : EdgeId) : Option NodeId :=
  (design.edge? id).bind (·.destination)

/-- The name of an edge, or the label of a place without one. -/
def edgeName (design : Design) (id : EdgeId) : String :=
  match design.edge? id with
  | some edge => edge.name
  | none => id.label

/-! ### Neighbours -/

/-- The node that drives the given one. -/
def driver? (design : Design) (id : NodeId) : Option NodeId :=
  ((design.node? id).bind (·.input)).bind design.source?

/-- The nodes that the given one drives, in the order of connection. -/
def sinks (design : Design) (id : NodeId) : List NodeId :=
  match design.node? id with
  | some node => node.outputs.filterMap design.destination?
  | none => []

/-- The value of a parameter: what drives it, or else its default. -/
def resolve? (design : Design) (node : Node) : Option NodeId :=
  match node.role?, node.input with
  | some (.parameter _), some edge => design.source? edge
  | some (.parameter default), none => default
  | _, _ => none

end Design

end Schematic
