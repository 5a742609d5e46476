import Schematic.Edit.Wiring
import Schematic.Proofs.Wiring

namespace Schematic

/-!
# Connecting and disconnecting

The edits that change edges, in terms of the edge table. Since a wired design is known by its edge
table, this says all about them.

* `Design.withoutDriver` — a node loses its driver, if it has one;
* `Design.withDriver` — a node loses its driver and gets another;
* `Wired.edges_withDriver` — the edge to the node goes, and the new one comes last;
* `Design.response` — what a request for a new driver meets with;
* `Session.perform_disconnect`, `Session.perform_connect` — the outcomes of the edits, all of them;
* `Session.perform_connect_cases` — the response decides which of them it is.

Taking a driver away has cases: no node, a node without a driver, a driver that the table does not
know. In a wired design the last of them cannot occur, and in each of the others the edges to the
node are gone afterwards and all other edges are as they were. So the two changes are described by
filters of the list of edges, which hide the cases. The edits are then run through once, along their
checks in order, and every refusal is matched with one case of `response`.
-/

namespace Design

variable {design : Design} {id source destination : NodeId} {driver driven node : Node}

/-- The design in which nothing drives a node. -/
def withoutDriver (design : Design) (id : NodeId) : Design :=
  match (design.node? id).bind (·.input) with
  | none => design
  | some place =>
    match design.edge? place with
    | none => design
    | some edge => design.unlink place edge

/-- The design in which a node is driven by another, instead of what drove it before. -/
def withDriver (design : Design) (destination source : NodeId) (driver driven : Node) : Design :=
  let freed := design.withoutDriver destination
  freed.link (freed.nextEdge source destination driver.name driven.name) source destination

/-! ### Without a driver -/

/-- A node without a driver has none to lose. -/
theorem withoutDriver_of_input_none (hn : design.node? id = some node) (hi : node.input = none) :
    design.withoutDriver id = design := by
  rw [withoutDriver, hn, Option.bind_some, hi]

/-- A node with a driver loses the edge that is its input, if this is a connected one. -/
theorem withoutDriver_of_input {place : EdgeId} {edge : Edge} (hn : design.node? id = some node)
    (hi : node.input = some place) (hedge : design.edge? place = some edge) :
    design.withoutDriver id = design.unlink place edge := by
  rw [withoutDriver, hn, Option.bind_some, hi]
  simp only [hedge]

/-- Taking a driver away is nothing, or the removal of one connected edge. -/
theorem withoutDriver_cases (design : Design) (id : NodeId) :
    design.withoutDriver id = design ∨
      ∃ place edge, design.edge? place = some edge ∧
        design.withoutDriver id = design.unlink place edge := by
  unfold withoutDriver
  split
  · exact .inl rfl
  · split
    · exact .inl rfl
    case h_2 place _ _ edge hedge => exact .inr ⟨place, edge, hedge, rfl⟩

/-- All nodes stay when one of them loses its driver. -/
theorem Extends.withoutDriver (design : Design) (id : NodeId) :
    design.Extends (design.withoutDriver id) := by
  rcases withoutDriver_cases design id with h | ⟨place, edge, -, h⟩ <;> rw [h]
  · exact .refl design
  · exact .unlink design place edge

/-- Nothing but nodes and edges changes when a node loses its driver. -/
theorem Rewires.withoutDriver (design : Design) (id : NodeId) :
    design.Rewires (design.withoutDriver id) := by
  rcases withoutDriver_cases design id with h | ⟨place, edge, -, h⟩ <;> rw [h]
  · exact .refl design
  · exact .unlink design place edge

/-- The edge table keeps its size when a node loses its driver, since its place is emptied and not
    removed. -/
@[simp] theorem size_edgeTable_withoutDriver (design : Design) (id : NodeId) :
    (design.withoutDriver id).edgeTable.size = design.edgeTable.size := by
  rcases withoutDriver_cases design id with h | ⟨place, edge, -, h⟩ <;> rw [h]
  rw [edgeTable_unlink, Array.size_setIfInBounds]

/-- There are as many nodes when one of them has lost its driver. -/
@[simp] theorem nodeCount_withoutDriver (design : Design) (id : NodeId) :
    (design.withoutDriver id).nodeCount = design.nodeCount := by
  rcases withoutDriver_cases design id with h | ⟨place, edge, -, h⟩ <;> rw [h]
  rw [nodeCount_unlink]

namespace Wired

/-- A wired design stays wired when a node loses its driver. -/
theorem withoutDriver (hw : design.Wired) (id : NodeId) : (design.withoutDriver id).Wired := by
  rcases withoutDriver_cases design id with h | ⟨place, edge, hedge, h⟩ <;> rw [h]
  · exact hw
  · exact hw.unlink hedge

/-- Exactly the edges to the node go. In a wired design there is at most one, and it is the input of
    the node. -/
theorem edges_withoutDriver (hw : design.Wired) (hn : design.node? id = some node) :
    (design.withoutDriver id).edges = design.edges.filter (·.destination ≠ some id) := by
  cases hi : node.input with
  | none =>
    rw [withoutDriver_of_input_none hn hi, eq_comm, List.filter_eq_self]
    intro edge hedge
    rw [hw.indexed.mem_edges_iff] at hedge
    rw [decide_eq_true_eq]
    intro hd
    have hin : node.input = some edge.id :=
      (hw.input_eq_some hn).mpr (by rw [destination?, hedge, Option.bind_some, hd])
    exact absurd (hi.symm.trans hin) (by simp)
  | some place =>
    obtain ⟨edge, hedge, hd⟩ := hw.edge?_of_input hn hi
    rw [withoutDriver_of_input hn hi hedge, hw.indexed.edges_unlink]
    refine List.filter_congr fun other hother => ?_
    rw [hw.indexed.mem_edges_iff] at hother
    -- The node has one input, so that an edge to it is the edge in that place.
    have hiff : other.id = place ↔ other.destination = some id := by
      constructor
      · rintro rfl
        obtain rfl : other = edge := Option.some.inj (hother.symm.trans hedge)
        exact hd
      · intro h
        have hin : node.input = some other.id :=
          (hw.input_eq_some hn).mpr (by rw [destination?, hother, Option.bind_some, h])
        exact Option.some.inj (hin.symm.trans hi)
    simp only [ne_eq, hiff]

/-- The node that loses its driver has no input afterwards, since in a wired design an input is an
    edge that leads to the node. -/
theorem input_withoutDriver (hw : design.Wired) (hn : design.node? id = some node)
    (hfreed : (design.withoutDriver id).node? id = some driven) : driven.input = none := by
  cases hi : driven.input with
  | none => rfl
  | some place =>
    obtain ⟨edge, hedge, hd⟩ := (hw.withoutDriver id).edge?_of_input hfreed hi
    have hmem := mem_edges.mpr ⟨place, hedge⟩
    rw [hw.edges_withoutDriver hn, List.mem_filter, hd] at hmem
    exact absurd hmem.2 (by simp)

/-! ### With another driver -/

/-- A wired design stays wired when a node gets another driver. The old one is gone by then, so that
    the node never has two. -/
theorem withDriver (hw : design.Wired) (hdriver : design.node? source = some driver)
    (hdriven : design.node? destination = some driven) (hl : driven.isLiteral = false) :
    (design.withDriver destination source driver driven).Wired := by
  have hext := Extends.withoutDriver design destination
  obtain ⟨driver', hdriver', hname, -⟩ := hext.keep hdriver
  obtain ⟨driven', hdriven', hname', hl'⟩ := hext.keep hdriven
  exact (hw.withoutDriver destination).link rfl rfl rfl hdriver' hdriven' (by rw [hl', hl])
    (hw.input_withoutDriver hdriven hdriven') (by rw [hname, hname']; rfl)

/-- Of the edges to the node only the new one is left, which comes last. -/
theorem edges_withDriver (hw : design.Wired) (hdriven : design.node? destination = some driven) :
    (design.withDriver destination source driver driven).edges =
      design.edges.filter (·.destination ≠ some destination) ++
        [design.nextEdge source destination driver.name driven.name] := by
  rw [Design.withDriver, edges_link, hw.edges_withoutDriver hdriven]
  simp only [nextEdge, size_edgeTable_withoutDriver]

/-- Of the edges that were there, exactly those to the node are gone. The new edge has a place of
    its own and takes none of theirs. -/
theorem edge?_withDriver (hw : design.Wired) (hdriven : design.node? destination = some driven)
    {place : EdgeId} (hlt : place < design.edgeTable.size) :
    (design.withDriver destination source driver driven).edge? place =
      if design.destination? place = some destination then none else design.edge? place := by
  have hne : place ≠ (design.withoutDriver destination).edgeTable.size := by
    rw [size_edgeTable_withoutDriver]
    exact Nat.ne_of_lt hlt
  rw [Design.withDriver, edge?_link, if_neg hne]
  simp only [← hw.input_eq_some hdriven]
  -- Without a driver nothing goes, and with one it is the input of the node that goes.
  cases hi : driven.input with
  | none => simp [withoutDriver_of_input_none hdriven hi]
  | some stale =>
    obtain ⟨edge, hedge, -⟩ := hw.edge?_of_input hdriven hi
    rw [withoutDriver_of_input hdriven hi hedge, edge?_unlink]
    simp only [Option.some.injEq, eq_comm (a := stale)]

end Wired

/-- All nodes stay when one of them gets another driver. -/
theorem Extends.withDriver (design : Design) (destination source : NodeId) (driver driven : Node) :
    design.Extends (design.withDriver destination source driver driven) :=
  (Extends.withoutDriver design destination).trans (.link _ _ source destination)

/-- Nothing but nodes and edges changes when a node gets another driver. -/
theorem Rewires.withDriver (design : Design) (destination source : NodeId) (driver driven : Node) :
    design.Rewires (design.withDriver destination source driver driven) :=
  (Rewires.withoutDriver design destination).trans (.link _ _ source destination)

/-- Another driver takes one new place in the edge table, whether or not there was one before. -/
@[simp] theorem size_edgeTable_withDriver (design : Design) (destination source : NodeId)
    (driver driven : Node) :
    (design.withDriver destination source driver driven).edgeTable.size =
      design.edgeTable.size + 1 := by
  rw [withDriver, edgeTable_link, Array.size_push, size_edgeTable_withoutDriver]

/-- There are as many nodes when one of them has got another driver. -/
@[simp] theorem nodeCount_withDriver (design : Design) (destination source : NodeId)
    (driver driven : Node) :
    (design.withDriver destination source driver driven).nodeCount = design.nodeCount := by
  rw [withDriver, nodeCount_link, nodeCount_withoutDriver]

/-! ### Requests for a driver -/

/-- What a request for a new driver of `destination` meets with. The two nodes have to be there, a
    literal cannot be driven, and a driver may have to stay. -/
def response (design : Design) (destination source : NodeId) : Except Error Unit :=
  match design.node? source, design.node? destination with
  | none, _ => .error (.invalidNodeId source)
  | some _, none => .error (.invalidNodeId destination)
  | some _, some driven =>
    if driven.isLiteral then .error (.cannotDriveLiteral driven.name)
    else
      match design.policy.replacement, driven.input with
      | .reject, some place => .error (.alreadyDriven driven.name (design.edgeName place))
      | .reject, none | .detach, _ => .ok ()

end Design

/-! ### The edits -/

namespace Session

variable {session : Session} {source destination : NodeId} {driver driven : Node}

/-- An edge is removed if it is connected, with a note of its ends in the journal, and is reported
    as missing otherwise. -/
theorem perform_disconnect (session : Session) (id : EdgeId) :
    session.perform (Edit.disconnect id) =
      match session.design.edge? id with
      | none => (.error (.edgeNotFound id), session)
      | some edge =>
        (.ok (), { design := session.design.unlink id edge,
                   journal := session.journal.push (.disconnected id edge.name) }) := by
  cases hedge : session.design.edge? id <;> simp [Edit.disconnect, hedge]

/-- In a wired design, a driver is never in the way where it may be replaced. The edge that the
    input names is connected, so that it can be removed. -/
theorem perform_release_of_detach (hw : session.design.Wired)
    (hdriven : session.design.node? destination = some driven)
    (hp : session.design.policy.replacement = .detach) :
    ∃ journal, session.perform (Edit.release destination driven) =
      (.ok (), { design := session.design.withoutDriver destination, journal }) := by
  unfold Edit.release
  cases hi : driven.input with
  | none =>
    refine ⟨session.journal, ?_⟩
    rw [Design.withoutDriver_of_input_none hdriven hi]
    rfl
  | some place =>
    obtain ⟨edge, hedge, -⟩ := hw.edge?_of_input hdriven hi
    simp only [perform_bind, perform_design, hp, perform_note, perform_disconnect, hedge,
      Design.withoutDriver_of_input hdriven hi hedge]
    exact ⟨_, rfl⟩

/-- Where drivers are not replaced, a driver ends a new connection. The error names the node and the
    edge that drives it. -/
theorem perform_release_of_reject (hp : session.design.policy.replacement = .reject)
    (hdriven : session.design.node? destination = some driven) :
    session.perform (Edit.release destination driven) =
      match driven.input with
      | none => (.ok (), { session with design := session.design.withoutDriver destination })
      | some place =>
        (.error (.alreadyDriven driven.name (session.design.edgeName place)), session) := by
  unfold Edit.release
  cases hi : driven.input with
  | none => rw [Design.withoutDriver_of_input_none hdriven hi]; rfl
  | some place => simp only [perform_bind, perform_design, hp, perform_throw]

/-- A connection is refused if its source is not there, whatever its destination is. -/
theorem perform_connect_of_missing_source (h : session.design.node? source = none) :
    session.perform (Edit.connect destination source) =
      (.error (.invalidNodeId source), session) := by
  simp [Edit.connect, Design.node, h]

/-- A connection is refused if its source is there and its destination is not. -/
theorem perform_connect_of_missing_destination (hs : session.design.node? source = some driver)
    (h : session.design.node? destination = none) :
    session.perform (Edit.connect destination source) =
      (.error (.invalidNodeId destination), session) := by
  simp [Edit.connect, Design.node, hs, h]

/-- A connection is refused if its destination is a literal. -/
theorem perform_connect_of_literal (hs : session.design.node? source = some driver)
    (hd : session.design.node? destination = some driven) (hl : driven.isLiteral = true) :
    session.perform (Edit.connect destination source) =
      (.error (.cannotDriveLiteral driven.name), session) := by
  simp [Edit.connect, Design.node, hs, hd, hl]

/-- A connection that is not refused gives the node its new driver. The reply is the id of the new
    edge, which is the size of the edge table before. -/
theorem perform_connect (hw : session.design.Wired)
    (hs : session.design.node? source = some driver)
    (hd : session.design.node? destination = some driven) (hl : driven.isLiteral = false)
    (hp : session.design.policy.replacement = .detach ∨ driven.input = none) :
    ∃ journal, session.perform (Edit.connect destination source) =
      (.ok session.design.edgeTable.size,
        { design := session.design.withDriver destination source driver driven, journal }) := by
  have hrelease : ∃ journal, session.perform (Edit.release destination driven) =
      (.ok (), { design := session.design.withoutDriver destination, journal }) := by
    cases hr : session.design.policy.replacement with
    | detach => exact perform_release_of_detach hw hd hr
    | reject =>
      have hi : driven.input = none := by simpa [hr] using hp
      exact ⟨session.journal, by rw [perform_release_of_reject hr hd, hi]⟩
  obtain ⟨journal, hrelease⟩ := hrelease
  -- The old driver is out of the way, and what follows cannot fail.
  simp only [Edit.connect, perform_bind, perform_node, Design.node, hs, hd, hl, hrelease,
    Bool.false_eq_true, if_false, perform_pure, perform_design, perform_change, perform_note]
  exact ⟨_, by rw [← Design.size_edgeTable_withoutDriver session.design destination]; rfl⟩

/-- A connection to a node with a driver is refused where drivers are not replaced, with the name of
    the node and that of the edge which drives it. -/
theorem perform_connect_of_reject (hs : session.design.node? source = some driver)
    (hd : session.design.node? destination = some driven) (hl : driven.isLiteral = false)
    (hp : session.design.policy.replacement = .reject) {place : EdgeId}
    (hi : driven.input = some place) :
    session.perform (Edit.connect destination source) =
      (.error (.alreadyDriven driven.name (session.design.edgeName place)), session) := by
  simp only [Edit.connect, perform_bind, perform_node, Design.node, hs, hd, hl, hi,
    Bool.false_eq_true, if_false, perform_release_of_reject hp hd]

/-- Connecting is refused with an error, or it gives a node a new driver. Which error it is depends
    on the first check that fails. -/
theorem perform_connect_cases (hw : session.design.Wired) (destination source : NodeId) :
    (∃ error, session.design.response destination source = .error error ∧
      session.perform (Edit.connect destination source) = (.error error, session)) ∨
    session.design.response destination source = .ok () ∧
      ∃ driver driven journal, session.design.node? source = some driver ∧
        session.design.node? destination = some driven ∧ driven.isLiteral = false ∧
        (session.design.policy.replacement = .detach ∨ driven.input = none) ∧
        session.perform (Edit.connect destination source) =
          (.ok session.design.edgeTable.size,
            { design := session.design.withDriver destination source driver driven, journal }) := by
  -- The checks in the order in which they are made: source, destination, literal, and then the
  -- policy with the driver that there may be.
  cases hs : session.design.node? source with
  | none =>
    exact .inl ⟨_, by simp only [Design.response, hs], perform_connect_of_missing_source hs⟩
  | some driver =>
    cases hd : session.design.node? destination with
    | none =>
      exact .inl ⟨_, by simp only [Design.response, hs, hd],
        perform_connect_of_missing_destination hs hd⟩
    | some driven =>
      cases hl : driven.isLiteral with
      | true =>
        exact .inl ⟨_, by simp [Design.response, hs, hd, hl], perform_connect_of_literal hs hd hl⟩
      | false =>
        cases hp : session.design.policy.replacement with
        | detach =>
          obtain ⟨journal, h⟩ := perform_connect hw hs hd hl (.inl hp)
          exact .inr ⟨by simp [Design.response, hs, hd, hl, hp], driver, driven, journal, rfl, rfl,
            hl, .inl rfl, h⟩
        | reject =>
          cases hi : driven.input with
          | none =>
            obtain ⟨journal, h⟩ := perform_connect hw hs hd hl (.inr hi)
            exact .inr ⟨by simp [Design.response, hs, hd, hl, hp, hi], driver, driven, journal, rfl,
              rfl, hl, .inr hi, h⟩
          | some place =>
            exact .inl ⟨_, by simp [Design.response, hs, hd, hl, hp, hi],
              perform_connect_of_reject hs hd hl hp hi⟩

end Session

end Schematic
