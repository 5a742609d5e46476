import Schematic.Design.Update
import Schematic.Proofs.NodeEdges

namespace Schematic.Design

/-!
# The node table

What the single changes do to the nodes of a design.

* `node?_insert`, `node?_updateNode`, `node?_attach` and their neighbours — the node in a place
  behind a change;
* `Extends` — the nodes of a design stay what they are, in their places, and only their edges may
  change;
* `Rewires` — nothing but nodes and edges changes.

The two relations divide the work. `Extends` says of every place what is known about its node
afterwards; it is closed under composition, and each single change has its lemma, so that a fact
about a node is carried over any number of changes in one step. `Rewires` says that the name, the
policy, the declared types and the registry are the same, and holds of the changes that only touch
edges. A property that looks at nodes without their edges follows from the first, one that looks at
anything else from the second.
-/

variable {design next later : Design}

/-- The place of a node lies inside the table. -/
theorem lt_nodeCount_of_node? {id : NodeId} {node : Node} (h : design.node? id = some node) :
    id < design.nodeCount := by
  obtain ⟨hlt, -⟩ := Array.getElem?_eq_some_iff.mp h
  exact hlt

/-- Where there are no more nodes than before, an empty place stays empty. -/
theorem node?_eq_none_of_nodeCount_eq (hc : next.nodeCount = design.nodeCount) {id : NodeId}
    (h : design.node? id = none) : next.node? id = none := by
  rw [node?, Array.getElem?_eq_none_iff] at h ⊢
  exact Nat.le_trans (Nat.le_of_eq hc) h

/-- A new node stands in the first place behind the table, and every other place holds what it held,
    however the node got its name. -/
theorem node?_insert (design : Design) (naming : Naming) (node : Node) (id : NodeId) :
    (design.insert naming node).node? id =
      if id = design.nodeCount then some node else design.node? id := by
  cases naming <;> exact Array.getElem?_push

/-- A new node without an entry in the registry stands in the first place behind the table, too. -/
theorem node?_insertUnnamed (design : Design) (node : Node) (id : NodeId) :
    (design.insertUnnamed node).node? id =
      if id = design.nodeCount then some node else design.node? id :=
  Array.getElem?_push

/-- Noting the literal of a truth value touches no node. -/
@[simp] theorem nodes_share (design : Design) (value : Bool) (id : NodeId) :
    (design.share value id).nodes = design.nodes := by
  unfold share; split <;> rfl

/-- Noting the literal of a truth value touches no edge. -/
@[simp] theorem edgeTable_share (design : Design) (value : Bool) (id : NodeId) :
    (design.share value id).edgeTable = design.edgeTable := by
  unfold share; split <;> rfl

/-- A change to one node is seen in its place, and nowhere else. -/
theorem node?_updateNode (design : Design) (id other : NodeId) (change : Node → Node) :
    (design.updateNode id change).node? other =
      if other = id then (design.node? other).map change else design.node? other := by
  simp only [node?, updateNode, Array.getElem?_modify, eq_comm (a := id)]

/-- A side of an edge is seen in the place of one node: there the node has taken it if it could, and
    every other node is as it was. -/
theorem node?_attach (design : Design) (edge : Edge) (id other : NodeId) :
    (design.attach edge id).node? other =
      (design.node? other).map fun node =>
        if other = id then (node.attach? id edge).getD node else node := by
  rw [attach, node?_updateNode]
  split <;> simp

/-- A side of an edge that is taken off is missing in the place of one node: there the node has
    given it up if it had it, and every other node is as it was. -/
theorem node?_detach (design : Design) (edge : Edge) (id other : NodeId) :
    (design.detach edge id).node? other =
      (design.node? other).map fun node =>
        if other = id then (node.detach? id edge).getD node else node := by
  rw [detach, node?_updateNode]
  split <;> simp

/-- A new edge is put on at its source first, and at its destination then. For a loop these are the
    same node, so that the order matters. -/
theorem node?_link (design : Design) (edge : Edge) (source destination id : NodeId) :
    (design.link edge source destination).node? id =
      ((design.attach edge source).attach edge destination).node? id := rfl

/-- A removed edge is taken off at its source first, and at its destination then, in the order in
    which it was put on. -/
theorem node?_unlink {edge : Edge} {source destination : NodeId} (place : EdgeId)
    (hs : edge.source = some source) (hd : edge.destination = some destination) (id : NodeId) :
    (design.unlink place edge).node? id =
      ((design.detach edge source).detach edge destination).node? id := by
  simp only [unlink, hs, hd]
  rfl

/-- A new edge makes no node. -/
@[simp] theorem nodeCount_link (design : Design) (edge : Edge) (source destination : NodeId) :
    (design.link edge source destination).nodeCount = design.nodeCount := by
  simp [link, attach, updateNode, nodeCount]

/-- A removed edge takes no node with it. -/
@[simp] theorem nodeCount_unlink (design : Design) (id : EdgeId) (edge : Edge) :
    (design.unlink id edge).nodeCount = design.nodeCount := by
  obtain ⟨_, _, _ | source, _ | destination⟩ := edge <;>
    simp [unlink, detach, updateNode, nodeCount]

/-! ### Nodes stay -/

/-- The nodes of a design are still there, in the same places, except for their edges. -/
def Extends (design next : Design) : Prop :=
  ∀ id node, design.node? id = some node →
    ∃ other, next.node? id = some other ∧ other.detached = node.detached

namespace Extends

/-- A design extends itself. -/
theorem refl (design : Design) : design.Extends design := fun _ _ h => ⟨_, h, rfl⟩

/-- What extends an extension extends the design. -/
theorem trans (h : design.Extends next) (h' : next.Extends later) : design.Extends later := by
  intro id node hn
  obtain ⟨other, ho, hdet⟩ := h id node hn
  obtain ⟨last, hl, hdet'⟩ := h' id other ho
  exact ⟨last, hl, hdet'.trans hdet⟩

/-- A node keeps its name, and stays a literal or not, since neither is a matter of its edges. -/
theorem keep (h : design.Extends next) {id : NodeId} {node : Node}
    (hn : design.node? id = some node) :
    ∃ other, next.node? id = some other ∧ other.name = node.name ∧
      other.isLiteral = node.isLiteral := by
  obtain ⟨other, ho, hdet⟩ := h id node hn
  exact ⟨other, ho, Node.congr_detached Node.name_detached hdet,
    Node.congr_detached Node.isLiteral_detached hdet⟩

/-- Where the nodes are the same, they are still there. -/
theorem of_nodes_eq (h : next.nodes = design.nodes) : design.Extends next := by
  intro id node hn
  exact ⟨node, by rw [node?, h]; exact hn, rfl⟩

/-- A new node leaves those that are there in their places. -/
theorem insert (design : Design) (naming : Naming) (node : Node) :
    design.Extends (design.insert naming node) := by
  intro id old h
  refine ⟨old, ?_, rfl⟩
  rw [node?_insert, if_neg (Nat.ne_of_lt (lt_nodeCount_of_node? h)), h]

/-- A new node without an entry in the registry leaves those that are there in their places. -/
theorem insertUnnamed (design : Design) (node : Node) :
    design.Extends (design.insertUnnamed node) := by
  intro id old h
  refine ⟨old, ?_, rfl⟩
  rw [node?_insertUnnamed, if_neg (Nat.ne_of_lt (lt_nodeCount_of_node? h)), h]

/-- A side of an edge that is put on changes nothing but the edges of one node. -/
theorem attach (design : Design) (edge : Edge) (id : NodeId) :
    design.Extends (design.attach edge id) := by
  intro other node h
  refine ⟨_, by rw [node?_attach, h, Option.map_some], ?_⟩
  split
  · exact Node.detached_attach ..
  · rfl

/-- A side of an edge that is taken off changes nothing but the edges of one node. -/
theorem detach (design : Design) (edge : Edge) (id : NodeId) :
    design.Extends (design.detach edge id) := by
  intro other node h
  refine ⟨_, by rw [node?_detach, h, Option.map_some], ?_⟩
  split
  · exact Node.detached_detach ..
  · rfl

/-- A new edge changes nothing but the edges of its ends. -/
theorem link (design : Design) (edge : Edge) (source destination : NodeId) :
    design.Extends (design.link edge source destination) :=
  ((attach design edge source).trans (attach _ edge destination)).trans (of_nodes_eq rfl)

/-- A removed edge changes nothing but the edges of its ends, whether it has both of them or not. -/
theorem unlink (design : Design) (id : EdgeId) (edge : Edge) :
    design.Extends (design.unlink id edge) := by
  -- The ends are visited one after the other, and no visit does more than take an edge away.
  have hfold : ∀ (ends : List NodeId) (design : Design),
      design.Extends (ends.foldl (·.detach edge) design) := by
    intro ends
    induction ends with
    | nil => exact refl
    | cons id ends ih => exact fun design => (detach design edge id).trans (ih _)
  have hfirst : design.Extends
      { design with edgeTable := design.edgeTable.setIfInBounds id none } := of_nodes_eq rfl
  exact hfirst.trans (hfold (edge.source.toList ++ edge.destination.toList) _)

/-- Where no node is new, every node is one that was there before, except for its edges. -/
theorem detached_of_nodeCount_eq (h : design.Extends next)
    (hc : next.nodeCount = design.nodeCount) {id : NodeId} {node : Node}
    (hn : next.node? id = some node) :
    ∃ old, design.node? id = some old ∧ node.detached = old.detached := by
  have hlt : id < design.nodeCount := hc ▸ lt_nodeCount_of_node? hn
  have hold : design.node? id = some design.nodes[id] := Array.getElem?_eq_getElem hlt
  -- The node that was in the place before is still there.
  obtain ⟨other, ho, hkeep⟩ := h id _ hold
  obtain rfl : node = other := Option.some.inj (hn.symm.trans ho)
  exact ⟨_, hold, hkeep⟩

/-- Where no node is new, every node has the name of one that was there before in the same place,
    and is a literal if that was one. -/
theorem of_nodeCount_eq (h : design.Extends next) (hc : next.nodeCount = design.nodeCount)
    {id : NodeId} {node : Node} (hn : next.node? id = some node) :
    ∃ old, design.node? id = some old ∧ node.name = old.name ∧
      node.isLiteral = old.isLiteral := by
  obtain ⟨old, hold, hdet⟩ := h.detached_of_nodeCount_eq hc hn
  exact ⟨old, hold, Node.congr_detached Node.name_detached hdet,
    Node.congr_detached Node.isLiteral_detached hdet⟩

end Extends

/-! ### What else stays -/

/-- Everything but the nodes and the edges is as it was. -/
def Rewires (design next : Design) : Prop :=
  next = { design with nodes := next.nodes, edgeTable := next.edgeTable }

namespace Rewires

/-- A design has everything that it has. -/
theorem refl (design : Design) : design.Rewires design := rfl

/-- What neither of two changes touches is the same behind both. -/
theorem trans (h : design.Rewires next) (h' : next.Rewires later) : design.Rewires later := by
  unfold Rewires at h h' ⊢
  rw [h', h]

/-- A new edge touches nothing but edges and the pins of nodes. -/
theorem link (design : Design) (edge : Edge) (source destination : NodeId) :
    design.Rewires (design.link edge source destination) := rfl

/-- A removed edge touches nothing but edges and the pins of nodes. -/
theorem unlink (design : Design) (id : EdgeId) (edge : Edge) :
    design.Rewires (design.unlink id edge) := by
  obtain ⟨_, _, _ | source, _ | destination⟩ := edge <;> rfl

/-- The policy is the same. -/
theorem policy (h : design.Rewires next) : next.policy = design.policy := by rw [h]

/-- The declared types are the same. -/
theorem declared (h : design.Rewires next) : next.declared = design.declared := by rw [h]

/-- The literals of the two truth values are the same. -/
theorem shared? (h : design.Rewires next) : next.shared? = design.shared? := by
  funext value
  rw [h]
  cases value <;> rfl

end Rewires

end Schematic.Design
