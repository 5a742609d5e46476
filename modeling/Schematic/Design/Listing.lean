import Schematic.Design.Basic
import Schematic.Text.Padding

namespace Schematic.Design

open Text

/-!
# Listings

A design as lines of text: a heading, and a row for each node.

* `heading` — the name and the size of the design;
* `row` — the columns of a node;
* `listing` — the whole.
-/

/-- The name and the size of the design. -/
def heading (design : Design) : String :=
  s!"graph {design.name}: {design.nodeCount} nodes, {design.edgeCount} edges"

/-- The form of the node that drives the one in place `id`, or a dash. -/
def driverText (design : Design) (id : NodeId) : String :=
  match (design.driver? id).bind design.node? with
  | some driver => driver.display
  | none => "-"

/-- The columns of a node: its variant, its name, its type, its driver and the number of edges that
    it drives. -/
def row (design : Design) (id : NodeId) (node : Node) : String :=
  "  " ++ padRight 10 node.tag.name ++ " " ++ padRight 20 node.name ++ " " ++
    padRight 10 node.type.name ++ " <- " ++ padRight 20 (design.driverText id) ++ " fan-out " ++
    toString node.outputs.length

/-- The heading and the rows. -/
def listing (design : Design) : List String :=
  design.heading :: design.places.map fun place => design.row place.1 place.2

end Schematic.Design
