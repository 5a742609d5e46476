namespace Schematic

/-!
# Edges

* `NodeId`, `EdgeId` — places in the tables of a design;
* `Edge` — a wire by which one node drives another.
-/

/-- A node's place in the node table. Places are given out in order and never again. -/
abbrev NodeId := Nat

/-- An edge's place in the edge table. Places are given out in order and never again. -/
abbrev EdgeId := Nat

/-- The written form of a node's place. -/
def NodeId.label (id : NodeId) : String := "N" ++ toString id

/-- The written form of an edge's place. -/
def EdgeId.label (id : EdgeId) : String := "E" ++ toString id

/-- A directed edge: its source drives its destination. -/
structure Edge where
  /-- The place in the edge table. -/
  id : EdgeId
  /-- The name, for messages. -/
  name : String
  /-- The node that drives. -/
  source : Option NodeId
  /-- The node that is driven. -/
  destination : Option NodeId
deriving DecidableEq, Repr

end Schematic
