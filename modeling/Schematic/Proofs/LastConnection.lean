import Schematic.Proofs.Building
import Schematic.Proofs.Connections
import Schematic.Proofs.Neighbours

namespace Schematic

open Netlist Design

/-!
# The wiring of a built design

The edges of a built design are those of the surviving connections, in order and with the places of
the connections as their ids. Since a wired design is known by its edges, this fixes the driver and
the sinks of every node.

* `Design.driver?_of_lastTo` — a declared node is driven by the last connection to it;
* `Design.sinks_surviving` — the sinks of a node are the destinations of its surviving connections;
* `Netlist.Wires`, `Netlist.wires_of_toDesign` — all this, for every netlist that is built.

The correspondence between edges and surviving connections is taken from the building of the design.
To find the driver of a declared node, the edge of the last connection to its name is looked up in
this correspondence; to find the sinks of a node, the edges from it are picked out on one side and
the connections whose edges these are on the other. A literal has sinks, too, but several nodes may
hold the same constant, so that only the sinks of declared nodes can be read off the netlist by
name.
-/

namespace Design

variable {design : Design} {id : NodeId} {name : String}
  {connections : List Connection} {place : Connection × EdgeId}

/-! ### The driver of a declared node -/

/-- A declared node is driven by the source of the last connection to it, through the edge that has
    been made for this connection. -/
theorem driver?_of_lastTo (hc : design.Consistent)
    (hedges : List.Forall₂ design.Realizes (surviving connections) design.edges)
    (hnamed : design.Named name id) (hlast : lastTo connections name = some place) :
    ∃ source, design.driver? id = some source ∧ design.source? place.2 = some source ∧
      design.Stands place.1.source source := by
  obtain ⟨hmem, hname⟩ := lastTo_eq_some.mp hlast
  obtain ⟨edge, hedge, hr⟩ := exists_right_of_mem hedges hmem
  obtain ⟨source, hs, hstands⟩ := hr.source
  -- The edge of this connection leads to the node, and no other edge does.
  have hd := (hr.destination_eq hc.catalogued hnamed).mpr hname
  refine ⟨source, ?_, ?_, hstands⟩
  · rw [hc.wired.driver?_of_mem_edges hedge hd, hs]
  · rw [source?, ← hr.id_eq, hc.wired.indexed.mem_edges_iff.mp hedge, Option.bind_some, hs]

/-- A declared node that no connection leads to has no driver, since each connected edge belongs to
    a connection. -/
theorem driver?_of_lastTo_none (hc : design.Consistent)
    (hedges : List.Forall₂ design.Realizes (surviving connections) design.edges)
    (hnamed : design.Named name id) (hlast : lastTo connections name = none) :
    design.driver? id = none := by
  refine hc.wired.driver?_eq_none fun edge hedge hd => ?_
  obtain ⟨place, hmem, hr⟩ := exists_left_of_mem hedges hedge
  refine lastTo_eq_none.mp hlast (List.mem_map.mpr ⟨place.1, mem_of_mem_surviving hmem, ?_⟩)
  exact (hr.destination_eq hc.catalogued hnamed).mp hd

/-! ### The sinks of a node -/

/-- The sinks of a node are the destinations of the surviving connections that it is the source of,
    in their order. -/
theorem sinks_surviving (hw : design.Wired)
    (hedges : List.Forall₂ design.Realizes (surviving connections) design.edges) (id : NodeId) :
    List.Forall₂ (fun place sink => design.Named place.1.destination sink)
      ((surviving connections).filter fun place => design.source? place.2 = some id)
      (design.sinks id) := by
  rw [hw.sinks_eq_edges]
  have hmembers : ∀ edge ∈ design.edges, design.edge? edge.id = some edge :=
    fun edge hmem => hw.indexed.mem_edges_iff.mp hmem
  -- The edges that remain in the induction are still connected ones.
  generalize surviving connections = places at hedges
  generalize design.edges = edges at hedges hmembers
  induction hedges with
  | nil => exact .nil
  | @cons place edge places edges hr _ ih =>
    have hedge := hmembers edge List.mem_cons_self
    have ih := ih fun other hmem => hmembers other (List.mem_cons_of_mem edge hmem)
    have hsource : design.source? place.2 = edge.source := by
      rw [source?, ← hr.id_eq, hedge, Option.bind_some]
    obtain ⟨sink, hd, hnamed⟩ := hr.destination
    by_cases hs : edge.source = some id
    · simpa [hsource, hs, hd] using ⟨hnamed, ih⟩
    · simpa [hsource, hs] using ih

/-- An operand stands for a declared node exactly if it is the name of it. No other name is
    registered for the node, and what a constant stands for is a literal. -/
theorem Stands.iff_of_named {operand : Operand} {source : NodeId} (hc : design.Catalogued)
    (hs : design.Stands operand source) (hnamed : design.Named name id) :
    source = id ↔ operand = .node name := by
  constructor
  · rintro rfl
    cases operand with
    | node other =>
      have hother : design.Named other source := hs
      rw [hother.name_unique hnamed]
    | constant value =>
      -- The literal of a constant has no chosen name.
      obtain ⟨node, hn, hv⟩ := hs
      obtain ⟨node', hn', hl, -⟩ := hnamed
      obtain rfl : node = node' := Option.some.inj (hn.symm.trans hn')
      rw [Node.isLiteral_eq_value?, hv] at hl
      exact absurd hl (by simp)
  · rintro rfl
    exact hc.unique hs hnamed

/-- The connections that a declared node is the source of are those that name it, as no constant and
    no other name can stand for it. -/
theorem filter_source_of_named (hc : design.Consistent)
    (hedges : List.Forall₂ design.Realizes (surviving connections) design.edges)
    (hnamed : design.Named name id) :
    ((surviving connections).filter fun place => design.source? place.2 = some id) =
      (surviving connections).filter fun place => place.1.source = .node name := by
  refine List.filter_congr fun place hmem => ?_
  obtain ⟨edge, hedge, hr⟩ := exists_right_of_mem hedges hmem
  obtain ⟨source, hs, hstands⟩ := hr.source
  have hsource : design.source? place.2 = some source := by
    rw [source?, ← hr.id_eq, hc.wired.indexed.mem_edges_iff.mp hedge, Option.bind_some, hs]
  rw [decide_eq_decide, hsource, Option.some_inj]
  exact hstands.iff_of_named hc.catalogued hnamed

end Design

/-! ### Built netlists -/

namespace Netlist

variable {netlist : Netlist} {policy : Policy} {design : Design}

/-- The wiring of the design is what the connections of the netlist say: the last connection to a
    node counts, and nothing else is connected. -/
structure Wires (netlist : Netlist) (design : Design) : Prop where
  /-- There is one declared node of each name, and it is found under the name. -/
  declared : ∀ name ∈ names netlist.nodes,
    ∃ id, design.find? name = some id ∧ ∀ other, design.Named name other ↔ other = id
  /-- The edges are those of the surviving connections, in order. -/
  edges : List.Forall₂ design.Realizes (surviving netlist.connections) design.edges
  /-- The driver of a declared node is the source of the last connection to it. -/
  driver : ∀ name id, design.Named name id →
    match lastTo netlist.connections name with
    | none => design.driver? id = none
    | some place => ∃ source, design.driver? id = some source ∧
        design.source? place.2 = some source ∧ design.Stands place.1.source source
  /-- The sinks of a node are the destinations of the surviving connections from it, in order. -/
  sinks : ∀ id node, design.node? id = some node →
    List.Forall₂ (fun place sink => design.Named place.1.destination sink)
      ((surviving netlist.connections).filter fun place => design.source? place.2 = some id)
      (design.sinks id)
  /-- For a declared node, these are the surviving connections that name it as their source. -/
  sinks_of_named : ∀ name id, design.Named name id →
    List.Forall₂ (fun place sink => design.Named place.1.destination sink)
      ((surviving netlist.connections).filter fun place => place.1.source = .node name)
      (design.sinks id)

/-- A built design is consistent: its look-ups, literals and wiring agree. -/
theorem Builds.consistent (h : netlist.Builds policy design) : design.Consistent := by
  obtain ⟨htypes, hnodes, hconnections⟩ := h
  exact consistent_of_connects hconnections (populated_of_chains htypes hnodes).consistent

/-- A built design has a declared node of a name exactly if the netlist declares one. -/
theorem Builds.names (h : netlist.Builds policy design) (name : String) :
    (design.declared.find? name).isSome = true ↔ name ∈ names netlist.nodes := by
  obtain ⟨htypes, hnodes, hconnections⟩ := h
  rw [declared_of_connects hconnections, (populated_of_chains htypes hnodes).names]

/-- The edges of a built design are those of the surviving connections, in order. -/
theorem Builds.edges (h : netlist.Builds policy design) :
    List.Forall₂ design.Realizes (surviving netlist.connections) design.edges := by
  obtain ⟨htypes, hnodes, hconnections⟩ := h
  have hp := populated_of_chains htypes hnodes
  exact (realizes_surviving hconnections hp.consistent hp.edgeTable_eq).2

/-- In the design of a netlist, of the connections to one node the last one wins, and nothing else
    is connected. -/
theorem wires_of_toDesign (h : netlist.toDesign policy = .ok design) : netlist.Wires design := by
  have hb := builds_of_toDesign h
  -- The design has been built by single steps, and these keep it consistent.
  have hc := hb.consistent
  constructor
  case declared =>
    intro name hmem
    obtain ⟨id, hid⟩ := Option.isSome_iff_exists.mp ((hb.names name).mpr hmem)
    refine ⟨id, by rw [find?, hid]; rfl, fun other => ?_⟩
    rw [← hc.catalogued, hid, Option.some_inj, eq_comm]
  case edges => exact hb.edges
  case driver =>
    intro name id hnamed
    split
    case h_1 hlast => exact driver?_of_lastTo_none hc hb.edges hnamed hlast
    case h_2 place hlast => exact driver?_of_lastTo hc hb.edges hnamed hlast
  case sinks => exact fun id _ _ => sinks_surviving hc.wired hb.edges id
  case sinks_of_named =>
    intro name id hnamed
    rw [← filter_source_of_named hc hb.edges hnamed]
    exact sinks_surviving hc.wired hb.edges id

/-- A node that drives itself loses this driver to a later constant, and the edge is no output of it
    any more. -/
theorem wires_of_replaced_loop :
    let netlist : Netlist :=
      { nodes := [⟨some "a", .signal, some "bit", 1⟩],
        connections := [⟨"a", .node "a", 2⟩, ⟨"a", .constant (.int 5), 3⟩] }
    ∃ design, netlist.toDesign .lenient = .ok design ∧ netlist.Wires design ∧
      surviving netlist.connections = [(⟨"a", .constant (.int 5), 3⟩, 1)] ∧
      design.driver? 0 = some 1 ∧ design.sinks 1 = [0] ∧ design.sinks 0 = [] := by
  intro netlist
  -- The building is evaluated as a whole, and the parts are taken from the result.
  have hrun : (netlist.toDesign .lenient).toOption.map
      (fun design => (design.driver? 0, design.sinks 1, design.sinks 0)) =
      some (some 1, [0], []) := by decide +kernel
  cases h : netlist.toDesign .lenient with
  | error error =>
    rw [h] at hrun
    exact absurd hrun (by simp [Except.toOption])
  | ok design =>
    rw [h] at hrun
    obtain ⟨hdriver, hsinks⟩ := Prod.mk.inj (Option.some.inj hrun)
    obtain ⟨hliteral, hloop⟩ := Prod.mk.inj hsinks
    exact ⟨design, rfl, wires_of_toDesign h, rfl, hdriver, hliteral, hloop⟩

end Netlist

end Schematic
