import Schematic.Proofs.EdgeTable
import Schematic.Proofs.NodeTable

namespace Schematic.Design

/-!
# Agreement of edges and nodes

A connected edge is noted three times: in the edge table, among the outputs of its source and as
the input of its destination.

* `Wired` — the three agree, and every connected edge joins two nodes of the design;
* `Wired.node?_link`, `Wired.node?_unlink` — what a new or a removed edge does to every node, in a
  design that is wired;
* `Wired.push`, `Wired.link`, `Wired.unlink`, `Wired.updateNode` — the single changes that keep it.

A new or a removed edge goes through the pins of two nodes that may be one and the same. The work is
in two lemmas, `Wired.node?_link` and `Wired.node?_unlink`, which say what becomes of any node as
one equation, with the outputs changed if it is the source and the input if it is the destination.
Their proofs use that the design was wired before: a new edge is in no node's outputs yet, and a
connected one is where the table says that it is. With these equations, wiring is kept since the
table and the pins change in the same way.
-/

variable {design next : Design}

/-- The edge leads from a node of the design to one that can be driven, and is named after both. -/
def Joins (design : Design) (edge : Edge) : Prop :=
  ∃ source destination driver driven,
    edge.source = some source ∧ edge.destination = some destination ∧
      design.node? source = some driver ∧ design.node? destination = some driven ∧
        driven.isLiteral = false ∧ edge.name = driver.name ++ "_to_" ++ driven.name

/-- The edge table and the pins of the nodes agree. -/
structure Wired (design : Design) : Prop where
  /-- An edge carries the place that it stands in. -/
  indexed : design.Indexed
  /-- A connected edge has both its ends in the design. -/
  joins : ∀ edge ∈ design.edges, design.Joins edge
  /-- The outputs of a node are the connected edges from it. -/
  outputs_eq : ∀ {id node}, design.node? id = some node → node.outputs = design.outgoing id
  /-- The input of a node is the one connected edge to it. -/
  input_eq : ∀ {id node}, design.node? id = some node → node.input.toList = design.incoming id

/-! ### Joined edges -/

/-- A joined edge has its source in the design. -/
theorem Joins.source {edge : Edge} (h : design.Joins edge) :
    ∃ id node, edge.source = some id ∧ design.node? id = some node := by
  obtain ⟨source, _, driver, _, hs, -, hdriver, -⟩ := h
  exact ⟨source, driver, hs, hdriver⟩

/-- A joined edge has its destination in the design, and this is no literal. -/
theorem Joins.destination {edge : Edge} (h : design.Joins edge) :
    ∃ id node, edge.destination = some id ∧ design.node? id = some node ∧
      node.isLiteral = false := by
  obtain ⟨_, destination, _, driven, -, hd, -, hdriven, hl, -⟩ := h
  exact ⟨destination, driven, hd, hdriven, hl⟩

/-- An edge joins two nodes as long as these stay, with their names. -/
theorem Joins.imp {edge : Edge} (h : design.Joins edge)
    (hkeep : ∀ {id node}, design.node? id = some node →
      ∃ other, next.node? id = some other ∧ other.name = node.name ∧
        other.isLiteral = node.isLiteral) : next.Joins edge := by
  obtain ⟨source, destination, driver, driven, hs, hd, hdriver, hdriven, hl, hname⟩ := h
  obtain ⟨driver', hdriver', hn, -⟩ := hkeep hdriver
  obtain ⟨driven', hdriven', hn', hl'⟩ := hkeep hdriven
  exact ⟨source, destination, driver', driven', hs, hd, hdriver', hdriven', by rw [hl', hl],
    by rw [hname, hn, hn']⟩

namespace Wired

variable {edge : Edge} {id source destination : NodeId} {node driver driven : Node} {place : EdgeId}

/-- An edge is among the outputs of a node exactly if it is connected and leaves the node. -/
theorem mem_outputs (hw : design.Wired) (hn : design.node? id = some node) :
    place ∈ node.outputs ↔ design.source? place = some id := by
  rw [hw.outputs_eq hn, hw.indexed.mem_outgoing]

/-- An edge is the input of a node exactly if it is connected and enters the node. -/
theorem input_eq_some (hw : design.Wired) (hn : design.node? id = some node) :
    node.input = some place ↔ design.destination? place = some id := by
  rw [← hw.indexed.mem_incoming, ← hw.input_eq hn, Option.mem_toList]

/-- Two nodes in one place have the same input if the same edges lead there. -/
theorem input_congr (hw : design.Wired) (hw' : next.Wired) {other : Node}
    (hn : design.node? id = some node) (ho : next.node? id = some other)
    (h : next.incoming id = design.incoming id) : other.input = node.input := by
  refine Option.ext fun place => ?_
  rw [← Option.mem_toList, ← Option.mem_toList, hw'.input_eq ho, hw.input_eq hn, h]

/-- The input of a node is a connected edge, and leads to the node. -/
theorem edge?_of_input (hw : design.Wired) (hn : design.node? id = some node)
    (hi : node.input = some place) :
    ∃ edge, design.edge? place = some edge ∧ edge.destination = some id :=
  Option.bind_eq_some_iff.mp ((hw.input_eq_some hn).mp hi)

/-- The outputs of a node stand in the order of their ids. -/
theorem outputs_pairwise (hw : design.Wired) (hn : design.node? id = some node) :
    node.outputs.Pairwise (· < ·) := by
  rw [hw.outputs_eq hn]
  exact hw.indexed.edgeIds_pairwise _

/-- No edge stands among the outputs of a node twice, not even a loop. -/
theorem outputs_nodup (hw : design.Wired) (hn : design.node? id = some node) :
    node.outputs.Nodup := by
  rw [hw.outputs_eq hn]
  exact hw.indexed.edgeIds_nodup _

/-- The source of a connected edge is a node of the design. -/
theorem node?_of_source? (hw : design.Wired) (h : design.source? place = some id) :
    ∃ node, design.node? id = some node := by
  obtain ⟨edge, hedge, hs⟩ := Option.bind_eq_some_iff.mp h
  obtain ⟨source, driver, hs', hdriver⟩ := (hw.joins edge (mem_edges.mpr ⟨_, hedge⟩)).source
  obtain rfl : source = id := Option.some.inj (hs'.symm.trans hs)
  exact ⟨driver, hdriver⟩

/-- The destination of a connected edge is a node of the design, and no literal. -/
theorem node?_of_destination? (hw : design.Wired) (h : design.destination? place = some id) :
    ∃ node, design.node? id = some node ∧ node.isLiteral = false := by
  obtain ⟨edge, hedge, hd⟩ := Option.bind_eq_some_iff.mp h
  obtain ⟨destination, driven, hd', hdriven, hl⟩ :=
    (hw.joins edge (mem_edges.mpr ⟨_, hedge⟩)).destination
  obtain rfl : destination = id := Option.some.inj (hd'.symm.trans hd)
  exact ⟨driven, hdriven, hl⟩

/-- Where no node is, no edge begins. -/
theorem outgoing_eq_nil (hw : design.Wired) (hn : design.node? id = none) :
    design.outgoing id = [] := by
  rw [List.eq_nil_iff_forall_not_mem]
  intro place hmem
  obtain ⟨node, hnode⟩ := hw.node?_of_source? (hw.indexed.mem_outgoing.mp hmem)
  exact absurd (hn.symm.trans hnode) (by simp)

/-- Where no node is, no edge ends. So a new node is found without an edge in either direction. -/
theorem incoming_eq_nil (hw : design.Wired) (hn : design.node? id = none) :
    design.incoming id = [] := by
  rw [List.eq_nil_iff_forall_not_mem]
  intro place hmem
  -- An edge to this place would have a node there, since it is joined.
  obtain ⟨node, hnode, -⟩ := hw.node?_of_destination? (hw.indexed.mem_incoming.mp hmem)
  exact absurd (hn.symm.trans hnode) (by simp)

/-! ### Changes to nodes -/

/-- Nodes can change, as long as they keep their edges and what edges depend on. -/
theorem of_nodes (hw : design.Wired) (he : next.edgeTable = design.edgeTable)
    (hkeep : ∀ {id node}, design.node? id = some node →
      ∃ other, next.node? id = some other ∧ other.name = node.name ∧
        other.isLiteral = node.isLiteral)
    (hedges : ∀ {id node}, next.node? id = some node →
      node.outputs = design.outgoing id ∧ node.input.toList = design.incoming id) :
    next.Wired where
  indexed place edge h := hw.indexed place edge (by rwa [edge?_congr he] at h)
  joins edge h := (hw.joins edge (by rwa [edges_congr he] at h)).imp hkeep
  outputs_eq h := by rw [outgoing, edgeIds_congr he]; exact (hedges h).1
  input_eq h := by rw [incoming, edgeIds_congr he]; exact (hedges h).2

/-- Being wired is about nodes and edges alone. Types, names and notes can change without harm to
    it. -/
theorem congr (hw : design.Wired) (hn : next.nodes = design.nodes)
    (he : next.edgeTable = design.edgeTable) : next.Wired := by
  have hnode : next.node? = design.node? := by
    funext id
    rw [node?, hn, ← node?]
  refine hw.of_nodes he (fun h => ⟨_, by rwa [hnode], rfl, rfl⟩) (fun h => ?_)
  rw [hnode] at h
  exact ⟨hw.outputs_eq h, hw.input_eq h⟩

/-- A new node without edges does no harm. -/
theorem push (hw : design.Wired) (hnode : node.detached = node)
    (hn : next.nodes = design.nodes.push node) (he : next.edgeTable = design.edgeTable) :
    next.Wired := by
  have hnodes : ∀ id, next.node? id = if id = design.nodeCount then some node
      else design.node? id := fun id => by
    rw [node?, hn]
    exact Array.getElem?_push
  have hfresh : design.node? design.nodeCount = none := Array.getElem?_eq_none (Nat.le_refl _)
  refine hw.of_nodes he (fun {id old} h => ⟨old, ?_, rfl, rfl⟩) (fun {id _} h => ?_)
  · rw [hnodes, if_neg (Nat.ne_of_lt (lt_nodeCount_of_node? h)), h]
  · rw [hnodes] at h
    split at h
    case isTrue hid =>
      -- No edge can lead to a place that has had no node.
      obtain rfl := Option.some.inj h
      rw [hid, hw.outgoing_eq_nil hfresh, hw.incoming_eq_nil hfresh, ← hnode,
        Node.outputs_detached, Node.input_detached]
      exact ⟨rfl, rfl⟩
    case isFalse => exact ⟨hw.outputs_eq h, hw.input_eq h⟩

/-- A new node without edges does no harm, however it got its name. -/
theorem insert (hw : design.Wired) (naming : Naming) (hnode : node.detached = node) :
    (design.insert naming node).Wired :=
  hw.push hnode (by cases naming <;> rfl) (by cases naming <;> rfl)

/-- A new node without edges and without an entry in the registry does no harm. -/
theorem insertUnnamed (hw : design.Wired) (hnode : node.detached = node) :
    (design.insertUnnamed node).Wired :=
  hw.push hnode rfl rfl

/-- Noting the literal of a truth value does no harm. -/
theorem share (hw : design.Wired) (value : Bool) (id : NodeId) : (design.share value id).Wired :=
  hw.congr (nodes_share ..) (edgeTable_share ..)

/-- A node may change its role. -/
theorem updateNode (hw : design.Wired) {change : Node → Node}
    (hname : (change node).name = node.name) (hl : (change node).isLiteral = node.isLiteral)
    (ho : (change node).outputs = node.outputs) (hi : (change node).input = node.input)
    (hn : design.node? id = some node) : (design.updateNode id change).Wired := by
  have hnodes := fun other => node?_updateNode design id other change
  -- The node in question keeps its name, its kind and its edges, and all others are the same.
  refine hw.of_nodes rfl (fun {other old} h => ?_) (fun {other new} h => ?_)
  · rw [hnodes, h]
    split
    case isTrue hid =>
      obtain rfl : node = old := Option.some.inj (by rw [← hn, ← h, hid])
      exact ⟨change node, rfl, hname, hl⟩
    case isFalse => exact ⟨old, rfl, rfl, rfl⟩
  · rw [hnodes] at h
    split at h
    case isTrue hid =>
      rw [hid, hn] at h
      obtain rfl := Option.some.inj h
      rw [hid, ho, hi]
      exact ⟨hw.outputs_eq hn, hw.input_eq hn⟩
    case isFalse => exact ⟨hw.outputs_eq h, hw.input_eq h⟩

/-! ### A new edge -/

/-- A new edge goes behind the outputs of its source and becomes the input of its destination. -/
theorem node?_link (hw : design.Wired) (hid : edge.id = design.edgeTable.size)
    (hs : edge.source = some source) (hd : edge.destination = some destination)
    (hdriven : design.node? destination = some driven) (hl : driven.isLiteral = false)
    (id : NodeId) :
    (design.link edge source destination).node? id = (design.node? id).map fun node =>
      node.withEdges (node.outputs ++ if id = source then [edge.id] else [])
        (if id = destination then some edge.id else node.input) := by
  rw [Design.node?_link, node?_attach, node?_attach]
  cases hn : design.node? id with
  | none => rfl
  | some node =>
    -- The edge is new, so that no node has it yet.
    have hfresh : edge.id ∉ node.outputs := by
      rw [hw.mem_outputs hn]
      intro h
      obtain ⟨old, hold, -⟩ := Option.bind_eq_some_iff.mp h
      exact absurd (lt_size_of_edge? hold) (by rw [hid]; exact Nat.lt_irrefl _)
    simp only [Option.map_some, Option.some.injEq]
    by_cases hsource : id = source
    · rw [if_pos hsource, if_pos hsource, Node.attach?_of_source hs hfresh,
        Option.getD_some]
      split
      case isTrue hdest =>
        -- A loop: the edge is among the outputs by now, and so becomes the input.
        obtain rfl : node = driven := Option.some.inj (by rw [← hn, ← hdriven, hdest])
        rw [Node.attach?_of_destination hd (by
          rw [Node.congr_detached Node.isLiteral_detached (Node.detached_withEdges ..), hl])
          (fun _ => by simp)]
        simp
      case isFalse => rfl
    · rw [if_neg hsource, if_neg hsource, List.append_nil]
      split
      case isTrue hdest =>
        obtain rfl : node = driven := Option.some.inj (by rw [← hn, ← hdriven, hdest])
        have hother : edge.source ≠ some destination := by
          rw [hs, ← hdest]
          simpa using Ne.symm hsource
        rw [Node.attach?_of_destination hd hl (fun h => absurd h hother),
          Option.getD_some]
      case isFalse => simp

/-- A new edge to a node without a driver keeps a design wired. -/
theorem link (hw : design.Wired) (hid : edge.id = design.edgeTable.size)
    (hs : edge.source = some source) (hd : edge.destination = some destination)
    (hdriver : design.node? source = some driver)
    (hdriven : design.node? destination = some driven) (hl : driven.isLiteral = false)
    (hfree : driven.input = none) (hname : edge.name = driver.name ++ "_to_" ++ driven.name) :
    (design.link edge source destination).Wired := by
  have hnodes := hw.node?_link hid hs hd hdriven hl
  have hext := Extends.link design edge source destination
  -- The four parts of being wired: the new edge carries its place, joins its two ends, is the last
  -- of the outputs of its source, and is the only input of its destination.
  refine ⟨hw.indexed.link source destination hid, fun e he => ?_, fun {id _} h => ?_,
    fun {id _} h => ?_⟩
  · rw [edges_link, List.mem_append, List.mem_singleton] at he
    rcases he with he | rfl
    · exact (hw.joins e he).imp hext.keep
    · exact Joins.imp ⟨source, destination, driver, driven, hs, hd, hdriver, hdriven, hl, hname⟩
        hext.keep
  · rw [hnodes, Option.map_eq_some_iff] at h
    obtain ⟨node, hn, rfl⟩ := h
    rw [Node.outputs_withEdges, hw.outputs_eq hn, outgoing_link, hs]
    simp only [Option.some.injEq, eq_comm (a := source)]
  · rw [hnodes, Option.map_eq_some_iff] at h
    obtain ⟨node, hn, rfl⟩ := h
    rw [incoming_link, ← hw.input_eq hn, hd, Node.input_withEdges]
    simp only [Option.some.injEq, eq_comm (a := destination)]
    by_cases hdest : id = destination
    · -- The destination has no driver so far, so that the new edge is the only one to it.
      obtain rfl : node = driven := Option.some.inj (by rw [← hn, ← hdriven, hdest])
      simp [hdest, hl, hfree]
    · cases hi : node.input with
      | none => simp [hdest]
      | some place => simp [hdest, Node.isLiteral_of_input hi]

/-! ### A removed edge -/

/-- A removed edge is gone from the outputs and from the input that it was. -/
theorem node?_unlink (hw : design.Wired) (hedge : design.edge? place = some edge) (id : NodeId) :
    (design.unlink place edge).node? id = (design.node? id).map fun node =>
      node.withEdges (node.outputs.erase place)
        (if node.input = some place then none else node.input) := by
  obtain rfl := hw.indexed place edge hedge
  obtain ⟨source, destination, -, -, hs, hd, -⟩ := hw.joins edge (mem_edges.mpr ⟨_, hedge⟩)
  rw [Design.node?_unlink _ hs hd, node?_detach, node?_detach]
  cases hn : design.node? id with
  | none => rfl
  | some node =>
    -- The pins agree with the edge table, so that they show on which sides of the edge the node is.
    have hout : edge.id ∈ node.outputs ↔ source = id := by
      rw [hw.mem_outputs hn, source?, hedge, Option.bind_some, hs, Option.some.injEq]
    have hin : node.input = some edge.id ↔ destination = id := by
      rw [hw.input_eq_some hn, destination?, hedge, Option.bind_some, hd, Option.some.injEq]
    simp only [Option.map_some, Option.some.injEq]
    by_cases hsource : id = source
    · rw [if_pos hsource, Node.detach?_of_source hs (hout.mpr hsource.symm),
        Option.getD_some]
      split
      case isTrue hdest =>
        -- A loop: the edge has left the outputs by now, where it stood once.
        have hlater : edge.id ∉ node.outputs.erase edge.id :=
          (hw.outputs_nodup hn).not_mem_erase
        have hinput := hin.mpr hdest.symm
        rw [Node.detach?_of_destination hd (by
          rw [Node.input_withEdges, Node.isLiteral_of_input hinput]; simpa using hinput)
          (fun _ => by simpa using hlater), if_pos hinput]
        simp
      case isFalse hdest => rw [if_neg (fun h => hdest (hin.mp h).symm)]
    · rw [if_neg hsource, List.erase_of_not_mem (fun h => hsource (hout.mp h).symm)]
      split
      case isTrue hdest =>
        have hother : edge.source ≠ some destination := by
          rw [hs, ← hdest]
          simpa using Ne.symm hsource
        have hinput := hin.mpr hdest.symm
        rw [Node.detach?_of_destination hd hinput (fun h => absurd h hother),
          Option.getD_some, if_pos hinput]
      case isFalse hdest => rw [if_neg (fun h => hdest (hin.mp h).symm), Node.withEdges_self]

/-- Removing a connected edge keeps a design wired. -/
theorem unlink (hw : design.Wired) (hedge : design.edge? place = some edge) :
    (design.unlink place edge).Wired := by
  have hnodes := hw.node?_unlink hedge
  -- The table loses the edge in one place, and both pins lose it as one member of a list without
  -- repetition.
  refine ⟨hw.indexed.unlink place edge, fun e he => ?_, fun {id _} h => ?_, fun {id _} h => ?_⟩
  · rw [hw.indexed.edges_unlink, List.mem_filter] at he
    exact (hw.joins e he.1).imp (Extends.unlink design place edge).keep
  · rw [hnodes, Option.map_eq_some_iff] at h
    obtain ⟨node, hn, rfl⟩ := h
    rw [Node.outputs_withEdges, outgoing, hw.indexed.edgeIds_unlink, ← outgoing,
      ← hw.outputs_eq hn, (hw.outputs_nodup hn).erase_eq_filter]
    simp only [bne, beq_eq_decide, ne_eq, decide_not]
  · rw [hnodes, Option.map_eq_some_iff] at h
    obtain ⟨node, hn, rfl⟩ := h
    rw [incoming, hw.indexed.edgeIds_unlink, ← incoming, ← hw.input_eq hn, Node.input_withEdges]
    cases hi : node.input with
    | none => simp
    | some other =>
      rw [Node.isLiteral_of_input hi]
      by_cases hplace : other = place <;> simp [hplace]

end Wired

end Schematic.Design
