import Schematic.Proofs.Permanence
import Schematic.Proofs.Preservation

namespace Schematic

/-!
# The journal as an audit trail

The journal tells which nodes and which edges there are. An edge is connected exactly if it has been
noted as made and not as removed, and the detailed records are one for each node, in order.

* `Event.edgesMade`, `Event.edgesRemoved`, `Event.nodesMade` — what events say has come and gone;
* `Event.InOrder` — no edge goes before it has come;
* `Design.Describes` — what an event says of a node is so;
* `Design.AuditedBy` — the events are a faithful trail of the design;
* `AuditedBy.note`, `AuditedBy.noteNode`, `AuditedBy.link`, `AuditedBy.unlink` — one more event,
  with the change to the design that it is about;
* `Session.audited_commands` — no command breaks the trail, not even one that fails halfway;
* `Session.audited_run`, `Netlist.audited_build` — the trail of a run, and of a built netlist.

The journal grows at its end only, so that a trail is followed one event at a time. Each event comes
with the change to the design that it is about, or with none, and for each of these pairs there is a
lemma that keeps all parts of `Design.AuditedBy` together. Commands and declarations are sequences
of such pairs with looks at the design in between. Between the two halves of a pair the trail is
broken, but no edit can fail there; this is why the trail also holds behind an edit that has failed
halfway.
-/

/-! ### Events -/

namespace Event

/-- The edge that an event says has been made. -/
def made? : Event → Option EdgeId
  | .connected edge .. => some edge
  | _ => none

/-- The edge that an event says has been removed. -/
def removed? : Event → Option EdgeId
  | .disconnected edge _ => some edge
  | _ => none

/-- The node that an event says has been made, anew or as a copy. -/
def node? : Event → Option NodeId
  | .created id .. | .copied id _ => some id
  | _ => none

/-- The edges that have been made, in order. -/
def edgesMade (events : List Event) : List EdgeId := events.filterMap made?

/-- The edges that have been removed, in order. -/
def edgesRemoved (events : List Event) : List EdgeId := events.filterMap removed?

/-- The nodes that the detailed events are about, in order. -/
def nodesMade (events : List Event) : List (Option NodeId) :=
  (events.filter (·.level = .trace)).map node?

/-- Every removal of an edge stands behind the making of this edge, under the same name. -/
def InOrder (events : List Event) : Prop :=
  ∀ (place : Nat) id name, events[place]? = some (.disconnected id name) →
    ∃ earlier < place, ∃ source destination,
      events[earlier]? = some (.connected id source destination name)

variable {events : List Event} {event : Event} {id : EdgeId}

/-- Another event adds the edge that it notes as made, if it notes one. -/
theorem edgesMade_concat (events : List Event) (event : Event) :
    edgesMade (events ++ [event]) = edgesMade events ++ event.made?.toList := by
  rw [edgesMade, List.filterMap_append]
  cases event <;> rfl

/-- Another event adds the edge that it notes as removed, if it notes one. -/
theorem edgesRemoved_concat (events : List Event) (event : Event) :
    edgesRemoved (events ++ [event]) = edgesRemoved events ++ event.removed?.toList := by
  rw [edgesRemoved, List.filterMap_append]
  cases event <;> rfl

/-- The detailed events are those that are about a node. -/
theorem nodesMade_concat (events : List Event) (event : Event) :
    nodesMade (events ++ [event]) = nodesMade events ++ event.node?.toList.map some := by
  rw [nodesMade, List.filter_append, List.map_append]
  cases event <;> rfl

/-- An edge has been made exactly if some event notes a connection under its id. -/
theorem mem_edgesMade :
    id ∈ edgesMade events ↔ ∃ source destination name,
      .connected id source destination name ∈ events := by
  rw [edgesMade, List.mem_filterMap]
  constructor
  · rintro ⟨event, hmem, hid⟩
    cases event <;> simp only [made?, Option.some.injEq, reduceCtorEq] at hid
    exact ⟨_, _, _, hid ▸ hmem⟩
  · rintro ⟨source, destination, name, hmem⟩
    exact ⟨_, hmem, rfl⟩

/-- An edge has been removed exactly if some event notes a disconnection under its id. -/
theorem mem_edgesRemoved :
    id ∈ edgesRemoved events ↔ ∃ name, .disconnected id name ∈ events := by
  rw [edgesRemoved, List.mem_filterMap]
  constructor
  · rintro ⟨event, hmem, hid⟩
    cases event <;> simp only [removed?, Option.some.injEq, reduceCtorEq] at hid
    exact ⟨_, hid ▸ hmem⟩
  · rintro ⟨name, hmem⟩
    exact ⟨_, hmem, rfl⟩

namespace InOrder

/-- Another event is in order unless it is the removal of an edge that has not been made. What
    stands in front of it keeps its place, and so the earlier events stay in order. -/
theorem concat (h : InOrder events)
    (hlast : ∀ id name, event = .disconnected id name →
      ∃ source destination, .connected id source destination name ∈ events) :
    InOrder (events ++ [event]) := by
  intro place id name hplace
  -- The place is one of the earlier events, that of the new one, or behind both.
  rcases Nat.lt_trichotomy place events.length with hlt | rfl | hgt
  · rw [List.getElem?_append_left hlt] at hplace
    obtain ⟨earlier, hbefore, source, destination, hmade⟩ := h place id name hplace
    refine ⟨earlier, hbefore, source, destination, ?_⟩
    rwa [List.getElem?_append_left (Nat.lt_trans hbefore hlt)]
  · rw [List.getElem?_concat_length] at hplace
    obtain ⟨source, destination, hmem⟩ := hlast id name (Option.some.inj hplace)
    obtain ⟨earlier, hlt, hmade⟩ := List.mem_iff_getElem.mp hmem
    refine ⟨earlier, hlt, source, destination, ?_⟩
    rw [List.getElem?_append_left hlt, List.getElem?_eq_getElem hlt, hmade]
  · have hnone : (events ++ [event])[place]? = none :=
      List.getElem?_eq_none (by rw [List.length_append, List.length_singleton]; omega)
    exact absurd (hnone.symm.trans hplace) (by simp)

/-- Where no edge goes before it has come, whatever has been removed has been made. -/
theorem edgesRemoved_subset (h : InOrder events) : edgesRemoved events ⊆ edgesMade events := by
  intro id hid
  obtain ⟨name, hmem⟩ := mem_edgesRemoved.mp hid
  obtain ⟨place, hplace⟩ := List.mem_iff_getElem?.mp hmem
  obtain ⟨earlier, -, source, destination, hmade⟩ := h place id name hplace
  exact mem_edgesMade.mpr ⟨source, destination, name, List.mem_of_getElem? hmade⟩

end InOrder

end Event

namespace Design

open Event

variable {design next : Design} {events : List Event} {event : Event}

/-- What an event says of the node that it is about is so: the node is there, with the tag, the name
    and the type that are noted, or as the copy of an earlier one. -/
def Describes (design : Design) : Event → Prop
  | .created id tag name type =>
    ∃ node, design.node? id = some node ∧ node.tag = tag ∧ node.name = name ∧
      node.type.name = type
  | .copied id template =>
    template < id ∧ ∃ node original, design.node? id = some node ∧
      design.node? template = some original ∧ node.tag = original.tag ∧
      node.name = original.name ∧ node.type = original.type ∧ node.value? = original.value?
  | _ => True

/-- A node stays what it has been described as, since its kind, its name, its type and its value are
    kept and ids are not given a second time. For a copy, this goes for the original as well. -/
theorem Keeps.describes (h : design.Keeps next) (hd : design.Describes event) :
    next.Describes event := by
  cases event with
  | created id tag name type =>
    obtain ⟨node, hn, rfl, rfl, rfl⟩ := hd
    obtain ⟨other, ho, hsame⟩ := h.node id node hn
    exact ⟨other, ho, hsame.tag, hsame.name, by rw [hsame.type]⟩
  | copied id template =>
    obtain ⟨hlt, node, original, hn, ho, htag, hname, htype, hvalue⟩ := hd
    obtain ⟨node', hn', hsame⟩ := h.node id node hn
    obtain ⟨original', ho', hsame'⟩ := h.node template original ho
    refine ⟨hlt, node', original', hn', ho', ?_, ?_, ?_, ?_⟩
    · rw [hsame.tag, hsame'.tag, htag]
    · rw [hsame.name, hsame'.name, hname]
    · rw [hsame.type, hsame'.type, htype]
    · rw [hsame.value, hsame'.value, hvalue]
  | replacing | connected | disconnected | built => trivial

/-- The events are a faithful trail of the design. -/
structure AuditedBy (design : Design) (events : List Event) : Prop where
  /-- The edges that were made are those of the places in the edge table, once each, in order. -/
  made : edgesMade events = List.range design.edgeTable.size
  /-- No edge has been removed twice. -/
  removed : (edgesRemoved events).Nodup
  /-- No edge has been removed before it was made. -/
  ordered : InOrder events
  /-- The connected edges are those that have been made and not removed. -/
  live : ∀ id, (∃ edge, design.edge? id = some edge) ↔
    id ∈ edgesMade events ∧ id ∉ edgesRemoved events
  /-- A connected edge has the ends and the name that were noted when it was made. -/
  edge : ∀ id edge, design.edge? id = some edge → ∃ source destination,
    edge.source = some source ∧ edge.destination = some destination ∧
      .connected id source destination edge.name ∈ events
  /-- The detailed events are one for each node, in order. -/
  nodes : nodesMade events = (List.range design.nodeCount).map some
  /-- The events are right about the nodes. -/
  describes : ∀ event ∈ events, design.Describes event

namespace AuditedBy

/-! ### One more event -/

/-- A design without nodes and edges is told of by no event at all. -/
theorem start (name : String) (policy : Policy) :
    (Session.start name policy).design.AuditedBy [] where
  made := rfl
  removed := List.nodup_nil
  ordered place id name h := absurd h (by simp)
  live id := by simp [edge?, Session.start, edgesMade]
  edge id edge h := absurd h (by simp [edge?, Session.start])
  nodes := rfl
  describes event h := absurd h List.not_mem_nil

/-- What changes neither the number of nodes nor the edges need not be noted. -/
theorem keep (h : design.AuditedBy events) (hk : design.Keeps next)
    (he : next.edgeTable = design.edgeTable) (hn : next.nodeCount = design.nodeCount) :
    next.AuditedBy events where
  made := by rw [h.made, he]
  removed := h.removed
  ordered := h.ordered
  live id := by rw [edge?_congr he, h.live]
  edge := by rw [edge?_congr he]; exact h.edge
  nodes := by rw [h.nodes, hn]
  describes event hmem := hk.describes (h.describes event hmem)

/-- The earlier events stay right if nodes keep what they are described by, and the last event has
    to be right for itself. -/
theorem describes_concat (h : design.AuditedBy events) (hk : design.Keeps next)
    (hd : next.Describes event) : ∀ other ∈ events ++ [event], next.Describes other := by
  intro other hmem
  rcases List.mem_append.mp hmem with hmem | hmem
  · exact hk.describes (h.describes other hmem)
  · rwa [List.mem_singleton.mp hmem]

/-- An event that is about no edge, with a change to other things than edges. The list of nodes
    grows by the node of the event, if it is about one. -/
theorem concat (h : design.AuditedBy events) (hk : design.Keeps next)
    (he : next.edgeTable = design.edgeTable) (hmade : event.made? = none)
    (hremoved : event.removed? = none) (hd : next.Describes event)
    (hn : (List.range next.nodeCount).map some =
      (List.range design.nodeCount).map some ++ event.node?.toList.map some) :
    next.AuditedBy (events ++ [event]) := by
  have hmades : edgesMade (events ++ [event]) = edgesMade events := by
    rw [edgesMade_concat, hmade, Option.toList_none, List.append_nil]
  have hremoveds : edgesRemoved (events ++ [event]) = edgesRemoved events := by
    rw [edgesRemoved_concat, hremoved, Option.toList_none, List.append_nil]
  exact {
    made := by rw [hmades, h.made, he]
    removed := by rw [hremoveds]; exact h.removed
    ordered := h.ordered.concat fun id name hevent =>
      absurd hremoved (by rw [hevent]; exact Option.some_ne_none id)
    live id := by rw [hmades, hremoveds, edge?_congr he, h.live]
    edge id edge hedge := by
      rw [edge?_congr he] at hedge
      obtain ⟨source, destination, hs, hd, hmem⟩ := h.edge id edge hedge
      exact ⟨source, destination, hs, hd, List.mem_append_left _ hmem⟩
    nodes := by rw [nodesMade_concat, h.nodes, hn]
    describes := h.describes_concat hk hd }

/-- An event that is about neither nodes nor edges. -/
theorem note (h : design.AuditedBy events) (hmade : event.made? = none)
    (hremoved : event.removed? = none) (hnode : event.node? = none)
    (hd : design.Describes event) : design.AuditedBy (events ++ [event]) :=
  h.concat (.refl design) rfl hmade hremoved hd (by simp [hnode])

/-- A new node with its event. -/
theorem noteNode (h : design.AuditedBy events) (hk : design.Keeps next)
    (he : next.edgeTable = design.edgeTable) (hcount : next.nodeCount = design.nodeCount + 1)
    (hnode : event.node? = some design.nodeCount) (hmade : event.made? = none)
    (hremoved : event.removed? = none) (hd : next.Describes event) :
    next.AuditedBy (events ++ [event]) :=
  h.concat hk he hmade hremoved hd (by simp [hnode, hcount, List.range_succ])

/-- A new edge with its event. Its id is the next one, which no earlier event can be about, so that
    it is among the edges made and not among those removed. -/
theorem link (h : design.AuditedBy events) {edge : Edge} {source destination : NodeId}
    (hid : edge.id = design.edgeTable.size) (hs : edge.source = some source)
    (hd : edge.destination = some destination) :
    (design.link edge source destination).AuditedBy
      (events ++ [.connected edge.id source destination edge.name]) := by
  have hkeeps : design.Keeps (design.link edge source destination) :=
    .of_extends (.link _ _ _ _) (by simp) fun id hlt => .inl (by
      rw [edge?_link, if_neg (Nat.ne_of_lt hlt)])
  -- The new edge cannot have been removed, since it has not been made before.
  have hnew : design.edgeTable.size ∉ edgesMade events := by
    rw [h.made]
    exact List.not_mem_range_self
  have hkept : design.edgeTable.size ∉ edgesRemoved events :=
    fun hmem => hnew (h.ordered.edgesRemoved_subset hmem)
  rw [hid]
  constructor
  case made =>
    rw [edgesMade_concat, h.made, edgeTable_link, Array.size_push, List.range_succ]
    rfl
  case removed =>
    rw [edgesRemoved_concat]
    simpa [removed?] using h.removed
  case ordered => exact h.ordered.concat fun id name hevent => absurd hevent (by simp)
  case live =>
    intro id
    rw [edgesMade_concat, edgesRemoved_concat, edge?_link]
    split
    case isTrue hplace => simp [made?, removed?, hplace, hkept]
    case isFalse hplace =>
      simpa [made?, removed?, hplace] using h.live id
  case edge =>
    intro id other hother
    rw [edge?_link] at hother
    split at hother
    case isTrue hplace =>
      obtain rfl := Option.some.inj hother
      exact ⟨source, destination, hs, hd, by simp [hplace]⟩
    case isFalse =>
      obtain ⟨source', destination', hs', hd', hmem⟩ := h.edge id other hother
      exact ⟨source', destination', hs', hd', List.mem_append_left _ hmem⟩
  case nodes =>
    rw [nodesMade_concat, h.nodes, nodeCount_link]
    exact List.append_nil _
  case describes => exact h.describes_concat hkeeps trivial

/-- A removed edge with its event. Only a connected edge is removed, and a connected one has been
    made and not been removed so far, so that the removal is in order and the first one. -/
theorem unlink (h : design.AuditedBy events) {id : EdgeId} {edge : Edge}
    (hedge : design.edge? id = some edge) :
    (design.unlink id edge).AuditedBy (events ++ [.disconnected id edge.name]) := by
  have hkeeps : design.Keeps (design.unlink id edge) := (Change.unlink hedge).keeps
  obtain ⟨source, destination, -, -, hmade⟩ := h.edge id edge hedge
  have hkept : id ∉ edgesRemoved events := ((h.live id).mp ⟨edge, hedge⟩).2
  -- Only the removed edge changes sides, from those that are connected to those that are gone.
  constructor
  case made =>
    rw [edgesMade_concat, h.made, edgeTable_unlink, Array.size_setIfInBounds]
    exact List.append_nil _
  case removed =>
    rw [edgesRemoved_concat]
    exact h.removed.append (List.nodup_singleton id) (List.disjoint_singleton.mpr hkept)
  case ordered =>
    refine h.ordered.concat fun id' name hevent => ?_
    obtain ⟨rfl, rfl⟩ := Event.disconnected.inj hevent
    exact ⟨source, destination, hmade⟩
  case live =>
    intro id'
    rw [edgesMade_concat, edgesRemoved_concat, edge?_unlink]
    split
    case isTrue hid => simp [removed?, hid]
    case isFalse hid => simpa [made?, removed?, hid] using h.live id'
  case edge =>
    intro id' other hother
    rw [edge?_unlink] at hother
    split at hother
    case isTrue => exact absurd hother (by simp)
    case isFalse =>
      obtain ⟨source', destination', hs, hd, hmem⟩ := h.edge id' other hother
      exact ⟨source', destination', hs, hd, List.mem_append_left _ hmem⟩
  case nodes =>
    rw [nodesMade_concat, h.nodes, nodeCount_unlink]
    exact List.append_nil _
  case describes => exact h.describes_concat hkeeps trivial

end AuditedBy

end Design

/-! ### Edits -/

namespace Session

open Edit (CoversCommands CoversNodes Preserves)
open Edit.Preserves (compositional)

/-- The journal is a faithful trail of the design. -/
def Audited (session : Session) : Prop := session.design.AuditedBy session.journal.toList

namespace Audited

variable {session : Session} {event : Event} {design : Design}

/-- A trail with one more event is the trail of a session that has noted this event last. -/
theorem push (h : design.AuditedBy (session.journal.toList ++ [event])) :
    Audited { design, journal := session.journal.push event } := by
  rw [Audited, Array.toList_push]
  exact h

/-- An event about neither nodes nor edges may be noted at any time, as long as what it says of
    nodes is nothing. -/
theorem note (hmade : event.made? = none) (hremoved : event.removed? = none)
    (hnode : event.node? = none) (hd : ∀ design : Design, design.Describes event) :
    Preserves Audited (Edit.note event) :=
  fun session h => push (Design.AuditedBy.note h hmade hremoved hnode (hd session.design))

/-- A change that makes no node and touches no edge need not be noted. -/
theorem change {step : Design → Design} (hk : ∀ design : Design, design.Keeps (step design))
    (he : ∀ design, (step design).edgeTable = design.edgeTable)
    (hn : ∀ design, (step design).nodeCount = design.nodeCount) :
    Preserves Audited (Edit.change step) :=
  fun session h =>
    Design.AuditedBy.keep h (hk session.design) (he session.design) (hn session.design)

/-- A type is declared without an event, and no event is about types. -/
theorem defineType (name : String) (shape : Shape) :
    Preserves Audited (Edit.defineType name shape) := by
  refine compositional.defineType (fun types => change ?_ (fun _ => rfl) fun _ => rfl) name shape
  exact fun _ => .of_edgeTable_eq (.of_nodes_eq rfl) rfl

/-- A port is turned around without an event, and no event tells of directions. -/
theorem flipPort (id : NodeId) : Preserves Audited (Edit.flipPort id) := by
  intro session h
  rw [perform_flipPort]
  split
  · exact h
  case h_2 hn =>
    split
    case h_1 hr =>
      exact Design.AuditedBy.keep h (Design.Change.turn hn hr).keeps rfl Array.size_modify
    case h_2 => exact h

/-! ### Nodes -/

/-- Every new node is noted, and what is noted of it is so. -/
theorem coversNodes : CoversNodes (Preserves Audited) where
  toCompositional := compositional
  insert naming node session h := by
    rw [perform_insert]
    have hk : session.design.Keeps (session.design.insert naming node) :=
      .of_edgeTable_eq (.insert _ _ _) (by cases naming <;> rfl)
    have hn : (session.design.insert naming node).node? session.design.nodeCount = some node := by
      rw [Design.node?_insert, if_pos rfl]
    exact push (Design.AuditedBy.noteNode h hk (by cases naming <;> rfl)
      (by cases naming <;> exact Array.size_push node) rfl rfl rfl ⟨node, hn, rfl, rfl, rfl⟩)
  share value id := by
    -- The literal has been noted as a node, and that it is shared need not be noted.
    refine change (fun _ => ?_) (fun _ => Design.edgeTable_share ..) (fun _ => ?_)
    · exact .of_edgeTable_eq (.of_nodes_eq (Design.nodes_share ..)) (Design.edgeTable_share ..)
    · exact congrArg Array.size (Design.nodes_share ..)

/-- A copy is noted with the node that it comes from, which has the same name, type and value and
    stands in an earlier place. -/
theorem copy (id : NodeId) : Preserves Audited (Edit.copy id) := by
  intro session h
  rw [perform_copy]
  split
  case h_2 => exact h
  case h_1 template hn =>
    have hk := (Design.Change.copy hn).keeps
    -- The copied node stands in an earlier place, since the copy comes behind all nodes.
    have hlt := Design.lt_nodeCount_of_node? hn
    have hcopy : (session.design.insertUnnamed template.detached).node? session.design.nodeCount =
        some template.detached := by
      rw [Design.node?_insertUnnamed, if_pos rfl]
    have htemplate : (session.design.insertUnnamed template.detached).node? id = some template := by
      rw [Design.node?_insertUnnamed, if_neg (Nat.ne_of_lt hlt), hn]
    exact push (Design.AuditedBy.noteNode h hk rfl (Array.size_push _) rfl rfl rfl
      ⟨hlt, _, _, hcopy, htemplate, template.tag_detached, template.name_detached,
        template.type_detached, template.value?_detached⟩)

/-! ### Edges -/

/-- A removed edge is noted with its name, and an edge that is not there leaves no event. -/
theorem disconnect (id : EdgeId) : Preserves Audited (Edit.disconnect id) := by
  intro session h
  rw [perform_disconnect]
  cases hedge : session.design.edge? id with
  | none => exact h
  | some edge => exact push (Design.AuditedBy.unlink h hedge)

/-- The announcement that a driver will be replaced is about no node and no edge of its own. What it
    announces is followed by its removal. -/
theorem release (id : NodeId) (node : Node) : Preserves Audited (Edit.release id node) :=
  .release (fun _ _ => note rfl rfl rfl fun _ => trivial) disconnect id node

/-- A new edge is noted with its ends and its name. An old driver is announced, removed and noted
    before, and each of these steps leaves a faithful trail. -/
theorem connect (destination source : NodeId) :
    Preserves Audited (Edit.connect destination source) := by
  refine compositional.bind (compositional.node source) fun driver => ?_
  refine compositional.bind (compositional.node destination) fun driven => ?_
  split
  case isTrue => exact compositional.throw _
  case isFalse =>
    refine compositional.bind (release destination driven) fun _ => ?_
    -- The last steps cannot fail, and are one pair of a change and its event.
    intro session h
    simp only [perform_bind, perform_design, perform_change, perform_note, perform_pure]
    exact push (Design.AuditedBy.link h rfl rfl rfl)

end Audited

/-! ### Runs -/

/-- No part of a command breaks the trail. -/
theorem audited_commands : CoversCommands (Preserves Audited) where
  map := compositional.map
  defineType := Audited.defineType
  insert := Audited.coversNodes.insert
  parameter := Audited.coversNodes.parameter
  boolLiteral := Audited.coversNodes.boolLiteral
  expression := Audited.coversNodes.expression
  namedExpression := Audited.coversNodes.namedExpression
  copy := Audited.copy
  flipPort := Audited.flipPort
  connect := Audited.connect
  disconnect := Audited.disconnect

/-- A command that fails in a wired design notes nothing. In a design that is broken it may have
    noted what it was about to replace. -/
theorem journal_of_failed_command {session : Session} {command : Command} {error : Error}
    (hw : session.design.Wired) (h : (session.perform command.run).1 = .error error) :
    (session.step command).journal = session.journal := by
  rcases perform_cases hw command with ⟨cause, hp⟩ | ⟨reply, next, hp, -⟩
  · rw [step, hp]
  · rw [hp] at h
    exact absurd h (by simp)

/-- At every point of every run, the journal is a faithful trail of the design, and a command that
    fails there notes nothing. -/
theorem audited_run (name : String) (policy : Policy) (commands : List Command) :
    let session := (start name policy).run commands
    session.Audited ∧ ∀ command error, (session.perform (Command.run command)).1 = .error error →
      (session.step command).journal = session.journal := by
  intro session
  have haudited : session.Audited :=
    Preserves.run audited_commands.run (Design.AuditedBy.start name policy) commands
  exact ⟨haudited, fun command error => journal_of_failed_command (wired_run name policy commands)⟩

/-- The signal gets another driver in place of its first one, the literal is made at its first use
    only, and neither driving the literal nor a copy of it leaves more than it should. -/
theorem audited_run_of_replaced_driver :
    let session := (start "top" .lenient).run
      [.port "a" .bit .input, .signal "b" .bit, .connect 1 0, .boolLiteral true, .connect 1 2,
        .boolLiteral true, .connect 2 0, .copy 1, .disconnect 1]
    session.journal.toList =
      [.created 0 .port "a" "bit", .created 1 .signal "b" "bit", .connected 0 0 1 "a_to_b",
        .created 2 .literal "bool_true" "boolean", .replacing 1 0, .disconnected 0 "a_to_b",
        .connected 1 2 1 "bool_true_to_b", .copied 3 1, .disconnected 1 "bool_true_to_b"] ∧
      session.Audited ∧ (session.step (.connect 2 0)).journal = session.journal := by
  intro session
  obtain ⟨haudited, hfailed⟩ := audited_run "top" .lenient
    [.port "a" .bit .input, .signal "b" .bit, .connect 1 0, .boolLiteral true, .connect 1 2,
      .boolLiteral true, .connect 2 0, .copy 1, .disconnect 1]
  exact ⟨rfl, haudited, hfailed (.connect 2 0) (.cannotDriveLiteral "bool_true") rfl⟩

end Session

/-- The trail of a built netlist is faithful as well, also where the building has failed, and stays
    so under all commands behind it. -/
theorem Netlist.audited_build (netlist : Netlist) (policy : Policy) (commands : List Command) :
    ((netlist.build policy).2.run commands).Audited := by
  have hbuilt : (netlist.build policy).2.Audited :=
    Session.Audited.coversNodes.build Session.Audited.defineType Session.Audited.connect
      (fun name nodes edges => Session.Audited.note rfl rfl rfl fun _ => trivial) netlist _
      (Design.AuditedBy.start netlist.designName policy)
  exact Edit.Preserves.run Session.audited_commands.run hbuilt commands

end Schematic
