import Mathlib.Data.List.Nodup
import Schematic.Design.Check
import Schematic.Proofs.Sequences
import Schematic.Proofs.Wiring

namespace Schematic

/-!
# Checking the wiring

The check of a design passes over its edges and over its nodes, each time in one direction only.
Together the two passes leave no disagreement.

* `Design.Tabled` — the tables of a design are in order, while the pins of its nodes may be wrong in
  any way;
* `Design.Registered` — the pins of every node are right;
* `Design.FindsStructural` — a check that finds nothing but such disagreements, as both passes do;
* `Design.checkWiring_eq_ok` — the two passes accept exactly the designs with the right pins;
* `Design.Registered.driver?_eq_some` — drivers and sinks are then converse to each other;
* `Design.validate_sound_complete` — the same for the whole check.

The pass over the edges sees that every connected edge is in the pins of both its ends. The pass
over the nodes sees that everything in the pins is a connected edge with this end. Taken together
they give both inclusions between the outputs of a node and the edges from it, and since neither
side repeats anything, the two are permutations of each other. An input is at most one edge, and for
it the two inclusions are an equivalence.

Nothing is assumed about how the design has come about. The pins may be wrong in any way; only the
tables have to make sense, since otherwise it could not be said which edges there are.
-/

/-- The error says that edges and nodes disagree. -/
def Error.IsStructural : Error → Prop
  | .asymmetricEdge .. | .cannotDriveLiteral _ | .invalidNodeId _ => True
  | _ => False

namespace Design

variable {design : Design} {edge : Edge} {id : NodeId} {node : Node} {error : Error}

/-- The edges are in their places and join nodes of the design, and no node has an output twice.
    Nothing is said about which outputs and which input a node has. -/
structure Tabled (design : Design) : Prop where
  /-- An edge carries the place that it stands in. -/
  indexed : design.Indexed
  /-- The source of a connected edge is a node of the design. -/
  source : ∀ edge ∈ design.edges, ∃ id node, edge.source = some id ∧ design.node? id = some node
  /-- The destination of a connected edge is a node of the design. -/
  destination : ∀ edge ∈ design.edges,
    ∃ id node, edge.destination = some id ∧ design.node? id = some node
  /-- No node has an output twice. -/
  outputs_nodup : ∀ {id node}, design.node? id = some node → node.outputs.Nodup

/-- The outputs of a node are the connected edges from it, in any order, and its input is an edge
    exactly if that is a connected edge to it. -/
def Registered (design : Design) : Prop :=
  ∀ id node, design.node? id = some node →
    node.outputs.Perm (design.outgoing id) ∧
      ∀ place, node.input = some place ↔ place ∈ design.incoming id

/-- A wired design has its tables in order, so that what is proved of validation applies to every
    design that comes out of commands. -/
theorem Wired.tabled (hw : design.Wired) : design.Tabled where
  indexed := hw.indexed
  source edge h := (hw.joins edge h).source
  destination edge h := by
    obtain ⟨id, node, hd, hn, -⟩ := (hw.joins edge h).destination
    exact ⟨id, node, hd, hn⟩
  outputs_nodup h := hw.outputs_nodup h

/-- A wired design has the right pins on every node, with the outputs in the order of their ids. -/
theorem Wired.registered (hw : design.Wired) : design.Registered := by
  intro id node hn
  refine ⟨by rw [hw.outputs_eq hn], fun place => ?_⟩
  rw [hw.input_eq_some hn, hw.indexed.mem_incoming]

/-! ### The single checks -/

/-- The listed places are the nodes with their ids. -/
theorem mem_places {place : NodeId × Node} :
    place ∈ design.places ↔ design.node? place.1 = some place.2 := by
  obtain ⟨id, node⟩ := place
  rw [places, List.mem_map, node?]
  constructor
  · rintro ⟨⟨node', id'⟩, hmem, heq⟩
    obtain ⟨rfl, rfl⟩ := Prod.mk.inj heq
    simpa using List.mem_zipIdx_iff_getElem?.mp hmem
  · intro h
    exact ⟨(node, id), List.mem_zipIdx_iff_getElem?.mpr (by simpa using h), rfl⟩

/-- The source of an edge passes exactly if the edge is among its outputs. -/
theorem checkSource_eq_ok (hs : edge.source = some id) (hn : design.node? id = some node) :
    design.checkSource edge = .ok () ↔ edge.id ∈ node.outputs := by
  simp only [checkSource, hs, Design.node, hn]
  show (if edge.id ∈ node.outputs then _ else _) = _ ↔ _
  split <;> simp [*]

/-- A literal has no input, so that an edge to one never passes. -/
theorem checkDestination_eq_ok (hd : edge.destination = some id)
    (hn : design.node? id = some node) :
    design.checkDestination edge = .ok () ↔ node.input = some edge.id := by
  simp only [checkDestination, hd, Design.node, hn]
  show (if node.isLiteral then _ else if node.input = some edge.id then _ else _) = _ ↔ _
  split
  case isTrue hl =>
    refine ⟨fun h => absurd h (by simp), fun h => ?_⟩
    exact absurd hl (by simp [Node.isLiteral_of_input h])
  case isFalse => split <;> simp [*]

/-- The outputs of a node pass exactly if each of them is a connected edge from this node. -/
theorem checkOutputs_eq_ok :
    design.checkOutputs id node = .ok () ↔
      ∀ place ∈ node.outputs, design.source? place = some id := by
  rw [checkOutputs, forM_eq_ok]
  refine forall₂_congr fun place _ => ?_
  split <;> simp [*]

/-- The input of a node passes exactly if it is a connected edge to this node, or if there is
    none. -/
theorem checkInput_eq_ok :
    design.checkInput id node = .ok () ↔
      ∀ place, node.input = some place → design.destination? place = some id := by
  unfold checkInput
  cases hi : node.input with
  | none => simp
  | some place =>
    by_cases h : design.destination? place = some id <;> simp [h]

/-! ### What the checks of the wiring find -/

/-- Whatever the check finds, it is that edges and nodes disagree. -/
def FindsStructural {α : Type} (check : Except Error α) : Prop :=
  ∀ error, check = .error error → error.IsStructural

namespace FindsStructural

/-- To look for a node finds at most that it is not there. -/
theorem of_node (design : Design) (id : NodeId) : FindsStructural (design.node id) := by
  unfold Design.node
  split
  · exact FailsWith.of_ok _
  · exact FailsWith.of_error trivial

/-- The check of an edge finds a node that is not there, a literal that is driven, or a side of the
    edge that is missing. -/
theorem checkEdge (design : Design) (edge : Edge) : FindsStructural (design.checkEdge edge) := by
  have hsource : FindsStructural (design.checkSource edge) := by
    unfold checkSource
    split
    · exact FailsWith.of_ok ()
    · refine FailsWith.bind (of_node design _) fun _ => ?_
      split
      · exact FailsWith.of_ok ()
      · exact FailsWith.of_error trivial
  refine FailsWith.bind hsource fun _ => ?_
  -- The other end is checked in the same way, but a literal is turned down before its pins are
  -- looked at.
  unfold checkDestination
  split
  · exact FailsWith.of_ok ()
  · refine FailsWith.bind (of_node design _) fun _ => ?_
    split
    · exact FailsWith.of_error trivial
    · split
      · exact FailsWith.of_ok ()
      · exact FailsWith.of_error trivial

/-- The check of a node finds an output or an input that is no such edge, and any error that it
    gives is one about the structure. -/
theorem checkNode (design : Design) (id : NodeId) (node : Node) :
    FindsStructural (design.checkNode id node) := by
  have houtputs : FindsStructural (design.checkOutputs id node) := by
    refine FailsWith.forM (fun place => ?_) _
    split
    · exact FailsWith.of_ok ()
    · exact FailsWith.of_error trivial
  refine FailsWith.bind houtputs fun _ => ?_
  unfold checkInput
  split
  · exact FailsWith.of_ok ()
  · split
    · exact FailsWith.of_ok ()
    · exact FailsWith.of_error trivial

/-- The two passes are made of checks that find disagreements only. -/
theorem checkWiring (design : Design) : FindsStructural design.checkWiring := by
  have hedges : FindsStructural (design.edges.forM design.checkEdge) :=
    FailsWith.forM (checkEdge design) _
  refine FailsWith.bind hedges fun _ => FailsWith.forM (fun place => ?_) _
  exact checkNode design place.1 place.2

end FindsStructural

/-! ### The two passes -/

/-- The two passes accept exactly the designs in which the pins of every node are right. One pass
    goes from the pins to the edges, and the other one from the edges to the pins. -/
theorem checkWiring_eq_ok (ht : design.Tabled) :
    design.checkWiring = .ok () ↔ design.Registered := by
  rw [checkWiring, andThen_eq_ok, forM_eq_ok, forM_eq_ok]
  constructor
  · rintro ⟨hedges, hnodes⟩ id node hn
    obtain ⟨hout, hin⟩ := andThen_eq_ok.mp (hnodes (id, node) (mem_places.mpr hn))
    rw [checkOutputs_eq_ok] at hout
    rw [checkInput_eq_ok] at hin
    constructor
    · -- The pass over the nodes gives one inclusion and the pass over the edges the other.
      have hnodup : (design.outgoing id).Nodup := ht.indexed.edgeIds_nodup _
      rw [List.perm_ext_iff_of_nodup (ht.outputs_nodup hn) hnodup]
      intro place
      refine ⟨fun h => ht.indexed.mem_outgoing.mpr (hout place h), fun h => ?_⟩
      obtain ⟨edge, hedge, hs⟩ := Option.bind_eq_some_iff.mp (ht.indexed.mem_outgoing.mp h)
      obtain rfl := ht.indexed place edge hedge
      have hcheck := andThen_eq_ok.mp (hedges edge (mem_edges.mpr ⟨_, hedge⟩))
      exact (checkSource_eq_ok hs hn).mp hcheck.1
    · intro place
      refine ⟨fun h => ht.indexed.mem_incoming.mpr (hin place h), fun h => ?_⟩
      obtain ⟨edge, hedge, hd⟩ := Option.bind_eq_some_iff.mp (ht.indexed.mem_incoming.mp h)
      obtain rfl := ht.indexed place edge hedge
      have hcheck := andThen_eq_ok.mp (hedges edge (mem_edges.mpr ⟨_, hedge⟩))
      exact (checkDestination_eq_ok hd hn).mp hcheck.2
  · intro hr
    constructor
    · -- The pass over the edges looks at both ends of each, and these are there.
      intro edge hmem
      have hedge := ht.indexed.mem_edges_iff.mp hmem
      obtain ⟨source, driver, hs, hdriver⟩ := ht.source edge hmem
      obtain ⟨destination, driven, hd, hdriven⟩ := ht.destination edge hmem
      refine andThen_eq_ok.mpr ⟨(checkSource_eq_ok hs hdriver).mpr ?_,
        (checkDestination_eq_ok hd hdriven).mpr ?_⟩
      · rw [(hr source driver hdriver).1.mem_iff, ht.indexed.mem_outgoing, source?, hedge]
        exact hs
      · rw [(hr destination driven hdriven).2, ht.indexed.mem_incoming, destination?, hedge]
        exact hd
    · rintro ⟨id, node⟩ hmem
      have hn := mem_places.mp hmem
      refine andThen_eq_ok.mpr ⟨checkOutputs_eq_ok.mpr fun place h => ?_,
        checkInput_eq_ok.mpr fun place h => ?_⟩
      · exact ht.indexed.mem_outgoing.mp ((hr id node hn).1.mem_iff.mp h)
      · exact ht.indexed.mem_incoming.mp (((hr id node hn).2 place).mp h)

/-- No change to a design makes the two passes find anything. -/
theorem Wired.checkWiring (hw : design.Wired) : design.checkWiring = .ok () :=
  (checkWiring_eq_ok hw.tabled).mpr hw.registered

/-! ### Drivers and sinks -/

namespace Registered

variable {driver driven : NodeId}

/-- One node is found as the driver of another exactly if there is an edge from the one to the
    other. -/
theorem driver?_eq_some (hr : design.Registered) (ht : design.Tabled) :
    design.driver? driven = some driver ↔
      ∃ place, design.source? place = some driver ∧ design.destination? place = some driven := by
  simp only [driver?, Option.bind_eq_some_iff]
  -- The driver is looked up through the input of the driven node, which is the edge in question.
  constructor
  · rintro ⟨place, ⟨node, hn, hi⟩, hs⟩
    exact ⟨place, hs, ht.indexed.mem_incoming.mp (((hr driven node hn).2 place).mp hi)⟩
  · rintro ⟨place, hs, hd⟩
    obtain ⟨edge, hedge, hd'⟩ := Option.bind_eq_some_iff.mp hd
    obtain ⟨id, node, hid, hn⟩ := ht.destination edge (mem_edges.mpr ⟨place, hedge⟩)
    obtain rfl : id = driven := Option.some.inj (hid.symm.trans hd')
    exact ⟨place, ⟨node, hn, ((hr id node hn).2 place).mpr (ht.indexed.mem_incoming.mpr hd)⟩, hs⟩

/-- One node is found among the sinks of another exactly if there is an edge from the other to
    it. -/
theorem mem_sinks (hr : design.Registered) (ht : design.Tabled) :
    driven ∈ design.sinks driver ↔
      ∃ place, design.source? place = some driver ∧ design.destination? place = some driven := by
  unfold sinks
  split
  case h_1 node hn =>
    rw [List.mem_filterMap]
    refine exists_congr fun place => and_congr_left fun _ => ?_
    rw [(hr driver node hn).1.mem_iff, ht.indexed.mem_outgoing]
  -- Where no node is there are no sinks, and the edges from it would be joined to no node.
  case h_2 hn =>
    refine ⟨fun h => absurd h List.not_mem_nil, ?_⟩
    rintro ⟨place, hs, -⟩
    obtain ⟨edge, hedge, hs'⟩ := Option.bind_eq_some_iff.mp hs
    obtain ⟨id, node, hid, hnode⟩ := ht.source edge (mem_edges.mpr ⟨place, hedge⟩)
    obtain rfl : id = driver := Option.some.inj (hid.symm.trans hs')
    exact absurd (hn.symm.trans hnode) (by simp)

/-- A node has one input, so that no other node drives it twice. This takes the pins to be right, as
    the checks make sure. -/
theorem sinks_nodup (hr : design.Registered) (ht : design.Tabled) :
    (design.sinks driver).Nodup := by
  unfold sinks
  split
  case h_1 node hn =>
    refine (ht.outputs_nodup hn).filterMap fun place place' driven h h' => ?_
    rw [Option.mem_def] at h h'
    -- Two outputs with one destination would both be its input.
    obtain ⟨edge, hedge, hd⟩ := Option.bind_eq_some_iff.mp h
    obtain ⟨id, node, hid, hnode⟩ := ht.destination edge (mem_edges.mpr ⟨place, hedge⟩)
    obtain rfl : id = driven := Option.some.inj (hid.symm.trans hd)
    have hi := ((hr id node hnode).2 place).mpr (ht.indexed.mem_incoming.mpr h)
    have hi' := ((hr id node hnode).2 place').mpr (ht.indexed.mem_incoming.mpr h')
    exact Option.some.inj (hi.symm.trans hi')
  case h_2 => exact List.nodup_nil

end Registered

/-! ### The whole check -/

/-- What comes after the wiring finds other faults. So a design passes the two passes exactly if
    validation has no structural error to report. -/
theorem validate_not_structural :
    (∀ error, design.validate = .error error → ¬ error.IsStructural) ↔
      design.checkWiring = .ok () := by
  unfold validate
  cases hc : design.checkWiring with
  | error e =>
    refine ⟨fun h => ?_, fun h => absurd h (by simp)⟩
    exact absurd (FindsStructural.checkWiring design e hc) (h e rfl)
  | ok =>
    refine ⟨fun _ => rfl, fun _ error h => ?_⟩
    -- What is left to find is a parameter without a value.
    replace h : (design.checkParameters >>= fun _ => pure design.warnings) = .error error := h
    unfold checkParameters at h
    split at h
    · obtain rfl := Except.error.inj h
      exact id
    · exact absurd h (by simp [bind, Except.bind, pure, Except.pure])

/-- The check finds no disagreement of edges and nodes exactly if the pins of every node are right,
    and in a design that passes the whole check drivers and sinks are converse to each other. -/
theorem validate_sound_complete (ht : design.Tabled) :
    ((∀ error, design.validate = .error error → ¬ error.IsStructural) ↔
      ∀ id node, design.node? id = some node →
        node.outputs.Perm (design.outgoing id) ∧
          ∀ place, node.input = some place ↔ place ∈ design.incoming id) ∧
    ∀ warnings, design.validate = .ok warnings → ∀ driver driven,
      (design.driver? driven = some driver ↔ driven ∈ design.sinks driver) ∧
        (driven ∈ design.sinks driver → (design.sinks driver).count driven = 1) := by
  refine ⟨by rw [validate_not_structural, checkWiring_eq_ok ht]; rfl, ?_⟩
  intro warnings hok driver driven
  -- A design that passes the whole check passes the two passes, so that its pins are right.
  have hr : design.Registered := by
    rw [← checkWiring_eq_ok ht, ← validate_not_structural]
    intro error h
    exact absurd (hok.symm.trans h) (by simp)
  refine ⟨by rw [hr.driver?_eq_some ht, hr.mem_sinks ht], fun h => ?_⟩
  exact List.count_eq_one_of_mem (hr.sinks_nodup ht) h

/-- The outputs of a node may stand in another order than its edges, since the checks ask for the
    same edges, and not for an order. -/
theorem drivers_of_swapped_outputs :
    let design : Design :=
      { name := "top", policy := .lenient,
        nodes := #[⟨"a", .bit, .wired .signal { outputs := [1, 0], input := some 0 }⟩,
          ⟨"b", .bit, .wired .signal { input := some 1 }⟩],
        edgeTable := #[some ⟨0, "a_to_a", some 0, some 0⟩, some ⟨1, "a_to_b", some 0, some 1⟩] }
    design.Tabled ∧ design.validate = .ok [] ∧
      (∀ node, design.node? 0 = some node → node.outputs.Perm (design.outgoing 0)) ∧
      (design.driver? 1 = some 0 ↔ 1 ∈ design.sinks 0) ∧ (design.sinks 0).count 1 = 1 := by
  intro design
  have ht : design.Tabled := by
    have hmem : ∀ edge ∈ design.edges, edge = ⟨0, "a_to_a", some 0, some 0⟩ ∨
        edge = ⟨1, "a_to_b", some 0, some 1⟩ := by
      intro edge h
      simpa [edges, design] using h
    refine ⟨?_, fun edge h => ?_, fun edge h => ?_, ?_⟩
    · rintro (_ | _ | place) edge h
      · obtain rfl := Option.some.inj h
        rfl
      · obtain rfl := Option.some.inj h
        rfl
      · exact absurd h (by simp [edge?, design])
    · rcases hmem edge h with rfl | rfl
      · exact ⟨0, _, rfl, rfl⟩
      · exact ⟨0, _, rfl, rfl⟩
    · rcases hmem edge h with rfl | rfl
      · exact ⟨0, _, rfl, rfl⟩
      · exact ⟨1, _, rfl, rfl⟩
    · rintro (_ | _ | id) node h
      · obtain rfl := Option.some.inj h
        decide
      · obtain rfl := Option.some.inj h
        decide
      · exact absurd h (by simp [node?, design])
  have hok : design.validate = .ok [] := rfl
  have hspec := validate_sound_complete ht
  have hpins := hspec.1.mp fun error h => absurd (hok.symm.trans h) (by simp)
  obtain ⟨hiff, hcount⟩ := hspec.2 [] hok 0 1
  exact ⟨ht, hok, fun node h => (hpins 0 node h).1, hiff, hcount (by decide)⟩

end Design

end Schematic
