import Schematic.Proofs.Driving
import Schematic.Proofs.Permanence

namespace Schematic

/-!
# Undoing a connection

An edge can be removed again. Where it did not replace another one, the design is then the one from
before, but for the place in the edge table that is used up.

* `Wired.nodes_congr` — a wired design with the same edges has the same pins on all its nodes;
* `Wired.unlink_link` — a new edge leaves nothing behind but its place;
* `Design.Loses`, `Wired.loses` — what the removal of any edge does to nodes and edges;
* `Session.undo_connect`, `Session.disconnect_again` — a connection is undone, and only once;
* `Session.disconnect_of_run` — all this, behind any run of commands.

That pins are as before need not be followed through the two changes. A wired design has its pins
from its edges, both designs are wired and have the same edges, and so they have the same pins
(`Wired.nodes_congr`). The table is compared place by place, and the rest does not change. For the
removal of an arbitrary edge this shortcut is not open, and the pins of its two ends are computed.
-/

namespace Design

variable {design next : Design} {id : EdgeId} {edge : Edge} {destination source : NodeId}
  {driver driven : Node}

/-! ### A new edge -/

namespace Wired

/-- The pins of the nodes follow from the edges. So two wired designs with the same nodes and the
    same edges have the same pins as well. -/
theorem nodes_congr (hw : design.Wired) (hw' : next.Wired) (hext : design.Extends next)
    (hc : next.nodeCount = design.nodeCount) (he : next.edges = design.edges) :
    next.nodes = design.nodes := by
  refine Array.ext_getElem? fun place => ?_
  show next.node? place = design.node? place
  cases hn : next.node? place with
  | none =>
    exact (node?_eq_none_of_nodeCount_eq hc.symm hn).symm
  | some node =>
    obtain ⟨old, hold, hdet⟩ := hext.detached_of_nodeCount_eq hc hn
    have hedgeIds : next.edgeIds = design.edgeIds := by
      funext select
      rw [edgeIds, he, ← edgeIds]
    have ho : node.outputs = old.outputs := by
      rw [hw'.outputs_eq hn, hw.outputs_eq hold, outgoing, hedgeIds, ← outgoing]
    have hi : node.input = old.input :=
      hw.input_congr hw' hold hn (by rw [incoming, hedgeIds, ← incoming])
    rw [hold, Node.eq_of_detached hdet ho hi]

/-- A new edge that is removed at once leaves the design as it was, except that one more place of
    the edge table has been used up. -/
theorem unlink_link (hw : design.Wired) (hid : edge.id = design.edgeTable.size)
    (hs : edge.source = some source) (hd : edge.destination = some destination)
    (hdriver : design.node? source = some driver)
    (hdriven : design.node? destination = some driven) (hl : driven.isLiteral = false)
    (hfree : driven.input = none) (hname : edge.name = driver.name ++ "_to_" ++ driven.name) :
    (design.link edge source destination).unlink edge.id edge =
      { design with edgeTable := design.edgeTable.push none } := by
  have hw' := hw.link hid hs hd hdriver hdriven hl hfree hname
  have hedge : (design.link edge source destination).edge? edge.id = some edge := by
    rw [edge?_link, if_pos hid]
  have hnodes : ((design.link edge source destination).unlink edge.id edge).nodes =
      design.nodes := by
    have hext := (Extends.link design edge source destination).trans (.unlink _ edge.id edge)
    refine hw.nodes_congr (hw'.unlink hedge) hext (by simp) ?_
    -- The ids of the other edges are places in the table.
    rw [hw'.indexed.edges_unlink, edges_link, List.filter_append, List.filter_eq_self.mpr]
    · simp
    · intro other hother
      have hlt := lt_size_of_edge? (hw.indexed.mem_edges_iff.mp hother)
      simpa [hid] using Nat.ne_of_lt hlt
  have hedges : ((design.link edge source destination).unlink edge.id edge).edgeTable =
      design.edgeTable.push none := by
    rw [edgeTable_unlink, edgeTable_link, hid]
    simp [Array.setIfInBounds, Array.set_push]
  have hrest := (Rewires.link design edge source destination).trans (.unlink _ edge.id edge)
  rw [Rewires, hnodes, hedges] at hrest
  exact hrest

/-- The edge of a node that had no driver is there, and it can be taken back. What is left of it is
    an empty place in the edge table. -/
theorem unlink_withDriver (hw : design.Wired) (hdriver : design.node? source = some driver)
    (hdriven : design.node? destination = some driven) (hl : driven.isLiteral = false)
    (hfree : driven.input = none) :
    let edge := design.nextEdge source destination driver.name driven.name
    let next := design.withDriver destination source driver driven
    next.edge? design.edgeTable.size = some edge ∧
      next.unlink design.edgeTable.size edge =
        { design with edgeTable := design.edgeTable.push none } := by
  intro edge next
  have hnext : next = design.link edge source destination := by
    rw [show next = design.withDriver destination source driver driven from rfl, Design.withDriver,
      withoutDriver_of_input_none hdriven hfree]
  rw [hnext]
  exact ⟨by rw [edge?_link, if_pos rfl],
    hw.unlink_link rfl rfl rfl hdriver hdriven hl hfree rfl⟩

end Wired

/-- An empty place at the end of the edge table holds no edge, as there was none before. -/
theorem edge?_push_none (design : Design) :
    ({ design with edgeTable := design.edgeTable.push none } : Design).edge? = design.edge? := by
  funext place
  simp only [edge?, Array.getElem?_push]
  split
  case isTrue hplace => rw [hplace, Array.getElem?_eq_none (Nat.le_refl _)]; rfl
  case isFalse => rfl

/-! ### Any edge -/

/-- The design is another one in that an edge is removed. -/
structure Loses (design : Design) (id : EdgeId) (edge : Edge) (next : Design) : Prop where
  /-- The edge is gone from the outputs of its source, which stay in order, and its destination has
      no input. -/
  node : ∀ place, next.node? place = (design.node? place).map fun node =>
    node.withEdges
      (if edge.source = some place then node.outputs.filter (· ≠ id) else node.outputs)
      (if edge.destination = some place then none else node.input)
  /-- All other nodes are as they were. -/
  bystander : ∀ place, edge.source ≠ some place → edge.destination ≠ some place →
    next.node? place = design.node? place
  /-- All other edges are as they were. -/
  edge : ∀ place, next.edge? place = if place = id then none else design.edge? place
  /-- Nothing else changes. -/
  rest : design.Rewires next

/-- To remove an edge takes it from the outputs of its source and from the input of its destination,
    and leaves every other edge and every other node as it was. -/
theorem Wired.loses (hw : design.Wired) (hedge : design.edge? id = some edge) :
    design.Loses id edge (design.unlink id edge) := by
  have hnode (place : NodeId) : (design.unlink id edge).node? place =
      (design.node? place).map fun node => node.withEdges
        (if edge.source = some place then node.outputs.filter (· ≠ id) else node.outputs)
        (if edge.destination = some place then none else node.input) := by
    rw [hw.node?_unlink hedge]
    -- The pins show on which sides of the edge the node is, since they agree with the table.
    refine Option.map_congr fun node hn => ?_
    have hout : id ∈ node.outputs ↔ edge.source = some place := by
      rw [hw.mem_outputs hn, source?, hedge, Option.bind_some]
    have hin : node.input = some id ↔ edge.destination = some place := by
      rw [hw.input_eq_some hn, destination?, hedge, Option.bind_some]
    simp only [hin]
    by_cases hs : edge.source = some place
    · rw [if_pos hs, (hw.outputs_nodup hn).erase_eq_filter]
      simp only [bne, beq_eq_decide, ne_eq, decide_not]
    · rw [if_neg hs, List.erase_of_not_mem (mt hout.mp hs)]
  refine ⟨hnode, fun place hs hd => ?_, edge?_unlink design id edge, .unlink design id edge⟩
  simp only [hnode, if_neg hs, if_neg hd, Node.withEdges_self, Option.map_id']

end Design

/-! ### Runs -/

namespace Session

open Design

variable {session : Session} {id : EdgeId} {edge : Edge} {destination source : NodeId}

/-- An edge that is connected can be removed. -/
theorem run_disconnect (session : Session) (h : session.design.edge? id = some edge) :
    ∃ journal, session.perform (Command.disconnect id).run =
      (.ok .done, { design := session.design.unlink id edge, journal }) := by
  have hrun : (Command.disconnect id).run = (fun _ => Reply.done) <$> Edit.disconnect id := rfl
  rw [hrun, perform_map, perform_disconnect, h]
  exact ⟨_, rfl⟩

/-- An edge that is not connected cannot be removed, and the session stays as it is. -/
theorem run_disconnect_of_missing (session : Session) (h : session.design.edge? id = none) :
    session.perform (Command.disconnect id).run = (.error (.edgeNotFound id), session) := by
  have hrun : (Command.disconnect id).run = (fun _ => Reply.done) <$> Edit.disconnect id := rfl
  rw [hrun, perform_map, perform_disconnect, h]
  rfl

/-- A connection of a node that had no driver is undone when its edge is removed. Only the journal
    and the edge table, which has one more place, show that there was anything. -/
theorem undo_connect {next : Session} (hw : session.design.Wired)
    (hfree : session.design.driver? destination = none)
    (hperform : session.perform (Command.connect destination source).run =
      (.ok (.edge id), next)) :
    id = session.design.edgeTable.size ∧
      (next.perform (Command.disconnect id).run).1 = .ok .done ∧
      (next.step (.disconnect id)).design =
        { session.design with edgeTable := session.design.edgeTable.push none } := by
  rcases run_connect_cases hw destination source with
    ⟨error, -, h⟩ | ⟨-, driver, driven, journal, hs, hd, hl, h⟩
  · exact absurd (hperform.symm.trans h) (by simp)
  · obtain ⟨hreply, hnext⟩ := Prod.mk.inj (hperform.symm.trans h)
    obtain rfl : id = session.design.edgeTable.size := Reply.edge.inj (Except.ok.inj hreply)
    -- The design behind the connection is known, and so is its edge.
    have hdesign : next.design = session.design.withDriver destination source driver driven := by
      rw [hnext]
    obtain ⟨hedge, hunlink⟩ :=
      hw.unlink_withDriver hs hd hl ((hw.input_eq_none_iff_driver? hd).mpr hfree)
    rw [← hdesign] at hedge hunlink
    obtain ⟨journal, hdone⟩ := run_disconnect next hedge
    exact ⟨rfl, by rw [hdone], (congrArg (·.2.design) hdone).trans hunlink⟩

/-- A removed edge cannot be removed again, neither at once nor behind any other commands, since its
    place is never used again. -/
theorem disconnect_again (hw : session.design.Wired) (hedge : session.design.edge? id = some edge)
    (later : List Command) :
    ((((session.step (.disconnect id)).run later).perform (Command.disconnect id).run).1) =
      .error (.edgeNotFound id) := by
  obtain ⟨journal, hdone⟩ := run_disconnect session hedge
  have hdesign : (session.step (.disconnect id)).design = session.design.unlink id edge :=
    congrArg (·.2.design) hdone
  have hlt : id < (session.step (.disconnect id)).design.edgeTable.size := by
    rw [hdesign, edgeTable_unlink, Array.size_setIfInBounds]
    exact lt_size_of_edge? hedge
  -- The place is kept, and it is kept empty.
  have hgone : ((session.step (.disconnect id)).run later).design.edge? id = none := by
    rcases (keeps_run (wired_step hw (.disconnect id)) later).edge id hlt with heq | hnone
    · rw [heq, hdesign, edge?_unlink, if_pos rfl]
    · exact hnone
  rw [run_disconnect_of_missing _ hgone]

/-- Behind any run, an edge can be removed, once and for all. If it is new and its destination had
    no driver, then the design is the one from before the edge was made, but for its place. -/
theorem disconnect_of_run (name : String) (policy : Policy) (earlier : List Command) :
    let session := (start name policy).run earlier
    let design := session.design
    (∀ destination source id next, design.driver? destination = none →
      session.perform (Command.connect destination source).run = (.ok (.edge id), next) →
      let undone := (next.step (.disconnect id)).design
      (next.perform (Command.disconnect id).run).1 = .ok .done ∧
        undone.nodes = design.nodes ∧ undone.edge? = design.edge? ∧ undone.find? = design.find? ∧
        id = design.edgeTable.size ∧
        undone = { design with edgeTable := design.edgeTable.push none }) ∧
    (∀ id edge, design.edge? id = some edge →
      let next := session.step (.disconnect id)
      (session.perform (Command.disconnect id).run).1 = .ok .done ∧
        design.Loses id edge next.design ∧
        ∀ later, ((next.run later).perform (Command.disconnect id).run).1 =
          .error (.edgeNotFound id)) := by
  intro session design
  have hw : design.Wired := wired_run name policy earlier
  constructor
  · intro destination source id next hfree hperform undone
    obtain ⟨hid, hdone, hundone⟩ := undo_connect hw hfree hperform
    rw [show undone = { design with edgeTable := design.edgeTable.push none } from hundone]
    exact ⟨hdone, rfl, edge?_push_none design, rfl, hid, rfl⟩
  · intro id edge hedge next
    obtain ⟨journal, hdone⟩ := run_disconnect session hedge
    have hnext : next.design = design.unlink id edge := congrArg (·.2.design) hdone
    refine ⟨by rw [hdone], ?_, disconnect_again hw hedge⟩
    rw [hnext]
    exact hw.loses hedge

/-- A signal drives itself and a parameter, and the parameter loses its driver twice: once the edge
    that is new, and then none. -/
theorem disconnect_of_loop :
    let session := (start "top" .lenient).run
      [.signal "a" .bit, .parameter "p" .bit none, .connect 0 0]
    let next := session.step (.connect 1 0)
    session.design.driver? 1 = none ∧
      (next.perform (Command.disconnect 1).run).1 = .ok .done ∧
      (next.step (.disconnect 1)).design.nodes = session.design.nodes ∧
      (∃ edge, next.design.edge? 0 = some edge ∧
        next.design.Loses 0 edge (next.step (.disconnect 0)).design) ∧
      (((next.step (.disconnect 0)).run [.connect 0 0]).perform (Command.disconnect 0).run).1 =
        .error (.edgeNotFound 0) := by
  intro session next
  have hmade := (disconnect_of_run "top" .lenient
    [.signal "a" .bit, .parameter "p" .bit none, .connect 0 0]).1 1 0 1 next rfl rfl
  have hloop := (disconnect_of_run "top" .lenient
    [.signal "a" .bit, .parameter "p" .bit none, .connect 0 0, .connect 1 0]).2 0 _ rfl
  exact ⟨rfl, hmade.1, hmade.2.1, ⟨_, rfl, hloop.2.1⟩, hloop.2.2 [.connect 0 0]⟩

end Session

end Schematic
