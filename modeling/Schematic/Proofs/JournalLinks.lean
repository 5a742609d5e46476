import Schematic.Proofs.Building
import Schematic.Proofs.Connections
import Schematic.Proofs.Preservation

namespace Schematic

open Netlist

/-!
# Connections in the journal

The journal notes every edge that is made, so that it still tells of an edge whose driver has been
replaced. What it notes during the building of a netlist are the connections of the netlist.

* `Session.links` — the edges that the journal notes, with their ends;
* `Session.Linked` — these edges have been noted, and so many places for edges have been given out.
  Every edit preserves this but the making of an edge (`Linked.coversNodes`, `Linked.release`);
* `Session.links_of_connect`, `links_of_wire` — the only edits that make one;
* `Design.Follows` — a noted edge has the ends that the connection names;
* `Netlist.follows_of_build` — the journal of a built netlist.

A replaced driver is gone from the design, but the journal remembers it, and this is what tells
which connection of a netlist made which edge. An edit either makes no edge, and then it leaves the
list of noted edges and the number of places for edges as they are, or it is a connection and adds
one to both. The first is a property that is preserved, with the list and the number as parameters.
The connections of a netlist are then counted off against the noted edges, from the first on.
-/

/-- An edge that has been made, with its source and its destination. -/
structure Link where
  edge : EdgeId
  source : NodeId
  destination : NodeId
deriving DecidableEq

/-- The edge that an event notes. -/
def Event.link? : Event → Option Link
  | .connected edge source destination _ => some ⟨edge, source, destination⟩
  | _ => none

/-- The edges that the journal notes, in order. -/
def Session.links (session : Session) : List Link := session.journal.toList.filterMap Event.link?

/-! ### Edits that make no edge -/

namespace Session

open Edit (CoversNodes Preserves)
open Edit.Preserves (compositional)

variable {α : Type} {session next : Session} {links : List Link} {places : Nat}

/-- The journal notes these edges, and so many places for edges have been given out. -/
def Linked (links : List Link) (places : Nat) (session : Session) : Prop :=
  session.links = links ∧ session.design.edgeTable.size = places

namespace Linked

/-- An edit that preserves this, whatever the edges are, adds no edge to those that are there. -/
theorem of_perform {edit : Edit α} {outcome : Except Error α}
    (h : Preserves (Linked session.links session.design.edgeTable.size) edit)
    (hp : session.perform edit = (outcome, next)) :
    next.links = session.links ∧
      next.design.edgeTable.size = session.design.edgeTable.size := by
  have hnext := h session ⟨rfl, rfl⟩
  rwa [hp] at hnext

/-- Of all events, only one kind is about a new edge. -/
theorem note {event : Event} (h : event.link? = none) :
    Preserves (Linked links places) (Edit.note event) := by
  intro session hlinked
  simpa [Linked, Session.links, h] using hlinked

/-- A change that is not noted may do anything but give out places. -/
theorem change {step : Design → Design}
    (hstep : ∀ design, (step design).edgeTable.size = design.edgeTable.size) :
    Preserves (Linked links places) (Edit.change step) :=
  fun session h => ⟨h.1, (hstep session.design).trans h.2⟩

/-- Types have nothing to do with edges. -/
theorem defineType (name : String) (shape : Shape) :
    Preserves (Linked links places) (Edit.defineType name shape) :=
  compositional.defineType (fun _ => change fun _ => rfl) name shape

/-- A new node has no edges yet. So all edits that make nodes leave the links and the edge table as
    they were, by composition. -/
theorem coversNodes : CoversNodes (Preserves (Linked links places)) where
  toCompositional := compositional
  insert naming _ :=
    compositional.insert (fun _ _ _ _ => note rfl) (change fun _ => by cases naming <;> rfl)
  share value id := change fun _ => by rw [Design.edgeTable_share]

/-- The place of an edge that is removed stays taken. -/
theorem disconnect (id : EdgeId) : Preserves (Linked links places) (Edit.disconnect id) :=
  compositional.disconnect (fun _ _ => change fun _ => by simp) (fun _ _ => note rfl) id

/-- An old driver goes without a new edge. -/
theorem release (id : NodeId) (node : Node) :
    Preserves (Linked links places) (Edit.release id node) :=
  .release (fun _ _ => note rfl) disconnect id node

end Linked

end Session

/-! ### Edits that make one -/

namespace Session

open Edit.Preserves (compositional)

variable {session next : Session}

/-- A new edge is noted with its ends, and has the next place. The two looks at the nodes and the
    release of an old driver come before it, and neither notes an edge. -/
theorem links_of_connect {destination source : NodeId} {id : EdgeId}
    (h : session.perform (Edit.connect destination source) = (.ok id, next)) :
    ∃ edge, edge.source = some source ∧ edge.destination = some destination ∧
      next.design.edge? session.design.edgeTable.size = some edge ∧
      next.links = session.links ++ [⟨session.design.edgeTable.size, source, destination⟩] ∧
      next.design.edgeTable.size = session.design.edgeTable.size + 1 := by
  -- What comes before the edge is made notes no edge and leaves its place free.
  obtain ⟨driver, first, hdriver, h⟩ := perform_bind_eq_ok.mp h
  obtain ⟨driven, second, hdriven, h⟩ := perform_bind_eq_ok.mp h
  split at h
  case isTrue => simp at h
  case isFalse =>
    obtain ⟨_, freed, hfreed, h⟩ := perform_bind_eq_ok.mp h
    obtain ⟨hlinks, hsize⟩ := Linked.of_perform (compositional.node source) hdriver
    obtain ⟨hlinks', hsize'⟩ := Linked.of_perform (compositional.node destination) hdriven
    obtain ⟨hlinks'', hsize''⟩ := Linked.of_perform (Linked.release destination driven) hfreed
    rw [← hsize, ← hsize', ← hsize'', ← hlinks, ← hlinks', ← hlinks'']
    simp only [perform_bind, perform_design, perform_change, perform_note, perform_pure] at h
    obtain ⟨-, rfl⟩ := Prod.mk.inj h
    refine ⟨freed.design.nextEdge source destination driver.name driven.name, rfl, rfl, ?_, ?_, ?_⟩
    · rw [Design.edge?_link, if_pos rfl]
    · simp [links, Event.link?, Design.nextEdge]
    · rw [Design.edgeTable_link, Array.size_push]

/-- A connection makes one edge, between the nodes that its two operands have been resolved to. A
    literal that is made for the source notes no edge. -/
theorem links_of_wire {scope : Registry} {connection : Connection}
    (h : session.perform (Edit.wire scope connection) = (.ok (), next)) :
    ∃ source destination edge, edge.source = some source ∧ edge.destination = some destination ∧
      next.design.edge? session.design.edgeTable.size = some edge ∧
      next.links = session.links ++ [⟨session.design.edgeTable.size, source, destination⟩] := by
  obtain ⟨destination, first, hdestination, h⟩ := perform_bind_eq_ok.mp h
  obtain ⟨source, second, hsource, h⟩ := perform_bind_eq_ok.mp h
  obtain ⟨hlinks, hsize⟩ := Linked.of_perform (compositional.declared scope _) hdestination
  obtain ⟨hlinks', hsize'⟩ := Linked.of_perform (Linked.coversNodes.operand scope _) hsource
  obtain ⟨id, hconnect⟩ := perform_discard_eq_ok.mp h
  obtain ⟨edge, hs, hd, hedge, hmade, -⟩ := links_of_connect hconnect
  rw [hsize', hsize] at hedge hmade
  rw [hlinks', hlinks] at hmade
  exact ⟨source, destination, edge, hs, hd, hedge, hmade⟩

end Session

/-! ### The journal of a netlist -/

namespace Design

variable {design mid next : Design} {place : Connection × EdgeId} {link : Link}

/-- The noted edge is the one of the connection in the given place: it leads to the node of the
    destination, and comes from what the source stands for. -/
structure Follows (design : Design) (place : Connection × EdgeId) (link : Link) : Prop where
  edge : link.edge = place.2
  destination : design.Named place.1.destination link.destination
  source : design.Stands place.1.source link.source

/-- An edge that has been noted for a connection stays the one of this connection, since the nodes
    that are named stay. -/
theorem Extends.follows (h : design.Extends next) (hf : design.Follows place link) :
    next.Follows place link where
  edge := hf.edge
  destination := h.named hf.destination
  source := h.stands hf.source

/-- The edge that a connection makes is the one that it asks for: from what its source stands for,
    to the node that bears the name of its destination. -/
theorem Connects.follows {connection : Connection} {edge : Edge} {source destination : NodeId}
    (h : design.Connects connection next) (hc : design.Consistent)
    (hedge : next.edge? design.edgeTable.size = some edge) (hs : edge.source = some source)
    (hd : edge.destination = some destination) :
    next.Follows (connection, design.edgeTable.size)
      ⟨design.edgeTable.size, source, destination⟩ := by
  obtain ⟨-, made, driven, -, hr, hedges⟩ := h.edges hc
  -- The edge that the connection has made is the last one of the table, and so the one that was
  -- noted.
  have hmade : next.edge? made.id = some made := by
    rw [← (h.consistent hc).wired.indexed.mem_edges_iff, hedges]
    exact List.mem_append_right _ List.mem_cons_self
  rw [hr.id_eq, hedge] at hmade
  obtain rfl := Option.some.inj hmade
  obtain ⟨_, hd', hnamed⟩ := hr.destination
  obtain ⟨_, hs', hstands⟩ := hr.source
  obtain rfl := Option.some.inj (hd.symm.trans hd')
  obtain rfl := Option.some.inj (hs.symm.trans hs')
  exact ⟨rfl, hnamed, hstands⟩

end Design

/-- The edges that are noted for connections are those of the connections, in order. Edges that were
    noted and then replaced are among them, as the journal keeps what has been. -/
theorem Session.follows_of_connections {start next : Session} {connections : List Connection}
    (hc : start.design.Consistent) (hempty : start.design.edgeTable = #[])
    (hlinks : start.links = [])
    (h : start.perform (connections.forM (Edit.wire start.design.declared)) = (.ok (), next)) :
    List.Forall₂ next.design.Follows connections.zipIdx next.links := by
  induction connections using List.reverseRecOn generalizing next with
  | nil =>
    obtain ⟨-, rfl⟩ := Prod.mk.inj h
    rw [hlinks]
    exact .nil
  | append_singleton connections connection ih =>
    rw [List.forM_eq_forM, List.forM_append] at h
    obtain ⟨_, mid, hfront, h⟩ := perform_bind_eq_ok.mp h
    have hchain := (ends_connections hc connections).ok_of_perform hfront
    have hmid := Design.consistent_of_connects hchain hc
    have hsize := (Design.realizes_surviving hchain hc hempty).1
    -- The last connection is made in the design that those before it have left.
    have hwire : mid.perform (Edit.wire mid.design.declared connection) = (.ok (), next) := by
      simpa [Design.declared_of_connects hchain, List.forM_cons] using h
    have hstep := (ends_wire hmid connection).ok_of_perform hwire
    obtain ⟨source, destination, edge, hs, hd, hedge, hmade⟩ := links_of_wire hwire
    rw [List.zipIdx_append, hmade]
    refine List.rel_append ((ih hfront).imp fun _ _ => hstep.toExtends.follows) ?_
    have hfollows := hstep.follows hmid hedge hs hd
    rw [hsize] at hfollows ⊢
    simpa using hfollows

namespace Netlist

open Design

variable {netlist : Netlist} {policy : Policy} {session : Session}

/-- The edges that the journal of a built netlist notes are those of its connections, in order. The
    types and nodes that come before note none, and so the numbers of both sides agree from the
    start. -/
theorem follows_of_build (h : netlist.build policy = (.ok (), session)) :
    List.Forall₂ session.design.Follows netlist.connections.zipIdx session.links := by
  obtain ⟨_, typed, htypes, h⟩ := Session.perform_bind_eq_ok.mp h
  obtain ⟨scope, populated, hnodes, h⟩ := Session.perform_bind_eq_ok.mp h
  obtain ⟨_, connected, hconnections, hlast⟩ := Session.perform_bind_eq_ok.mp h
  -- The types and the nodes leave the journal without any edge.
  have hlinks : populated.links = [] := by
    have covers {links : List Link} {places : Nat} :
        Edit.CoversNodes (Edit.Preserves (Session.Linked links places)) :=
      Session.Linked.coversNodes
    have hnothing := Session.Linked.of_perform
      (covers.forM (fun decl => covers.map (Session.Linked.defineType _ _) _) _) htypes
    have hnone := Session.Linked.of_perform (covers.foldlM covers.declare _ _) hnodes
    rw [hnone.1, hnothing.1]
    rfl
  have htyped := (Session.ends_types _ netlist.types).ok_of_perform htypes
  have hdeclared : typed.design.declared = {} := (typed_keeps htyped).2.1
  have hc := htyped.keep DefinesType.consistent (netlist.blank_consistent policy)
  have hends := Session.ends_nodes hc netlist.nodes
  rw [hdeclared] at hends
  obtain ⟨hpopulated, rfl, -⟩ := hends.ok_of_perform hnodes
  have hp := populated_of_chains htyped hpopulated
  have hfollows :=
    Session.follows_of_connections hp.consistent hp.edgeTable_eq hlinks hconnections
  -- What is left is an entry in the journal that is no edge.
  simp only [Session.perform_bind, Session.perform_design, Session.perform_note] at hlast
  obtain ⟨-, rfl⟩ := Prod.mk.inj hlast
  simpa [Session.links, Event.link?, List.filterMap_cons] using hfollows

end Netlist

end Schematic
