import Schematic.Proofs.Rewiring
import Schematic.Proofs.Validation

namespace Schematic

/-!
# Neighbours

The neighbours of all nodes of a wired design depend on its edges alone, and of these on nothing but
their ends.

* `Drive`, `Design.drives` — which node drives which, in the order of the edges;
* `Wired.driver?_eq_some`, `Wired.sinks_eq`, `Wired.edgeCount_eq` — drivers, sinks and the number of
  edges in these terms;
* `Wired.driver?_congr`, `Wired.sinks_congr` — they stay as long as the edge table does;
* `Wired.destinations_nodup` — no node is driven twice;
* `Wired.drives_withDriver` — a node loses its driver and gets another.

A driver is found through the input of the driven node, a list of sinks through the outputs of the
driving one, and the number of edges by counting the table. In a wired design all three are read off
one list, that of the drives. A change to a design is then described by what it does to this list,
and two designs with the same list cannot be told apart by asking for neighbours.
-/

/-- One node drives another, or is to drive it. -/
structure Drive where
  /-- The node that drives. -/
  source : NodeId
  /-- The node that is driven. -/
  destination : NodeId
deriving DecidableEq, Repr

/-- What an edge with two ends does. -/
def Edge.drive? (edge : Edge) : Option Drive :=
  match edge.source, edge.destination with
  | some source, some destination => some ⟨source, destination⟩
  | _, _ => none

/-- An edge stands for a drive exactly if it has the source and the destination of this drive. -/
theorem Edge.drive?_eq_some {edge : Edge} {drive : Drive} :
    edge.drive? = some drive ↔
      edge.source = some drive.source ∧ edge.destination = some drive.destination := by
  obtain ⟨source, destination⟩ := drive
  obtain ⟨_, _, _ | _, _ | _⟩ := edge <;> simp [drive?]

namespace Design

variable {design next : Design} {id source destination : NodeId} {driver driven : Node}
  {drive : Drive} {edge : Edge}

/-- Which node drives which, in the order of the edges. -/
def drives (design : Design) : List Drive := design.edges.filterMap Edge.drive?

/-- Which node drives which depends on the edge table alone. -/
theorem drives_congr (he : next.edgeTable = design.edgeTable) : next.drives = design.drives := by
  rw [drives, edges_congr he, ← drives]

/-- One node drives another exactly if there is a place in the edge table with these two as the ends
    of its edge. -/
theorem mem_drives :
    drive ∈ design.drives ↔ ∃ place, design.source? place = some drive.source ∧
      design.destination? place = some drive.destination := by
  rw [drives, List.mem_filterMap]
  constructor
  · rintro ⟨edge, hmem, hdrive⟩
    obtain ⟨place, hedge⟩ := mem_edges.mp hmem
    obtain ⟨hs, hd⟩ := Edge.drive?_eq_some.mp hdrive
    exact ⟨place, by rw [source?, hedge]; exact hs, by rw [destination?, hedge]; exact hd⟩
  · rintro ⟨place, hs, hd⟩
    obtain ⟨edge, hedge, hs⟩ := Option.bind_eq_some_iff.mp hs
    rw [destination?, hedge] at hd
    exact ⟨edge, mem_edges.mpr ⟨place, hedge⟩, Edge.drive?_eq_some.mpr ⟨hs, hd⟩⟩

namespace Wired

/-- A connected edge has two ends. -/
theorem exists_drive? (hw : design.Wired) (hmem : edge ∈ design.edges) :
    ∃ drive, edge.drive? = some drive := by
  obtain ⟨source, destination, -, -, hs, hd, -⟩ := hw.joins edge hmem
  exact ⟨⟨source, destination⟩, Edge.drive?_eq_some.mpr ⟨hs, hd⟩⟩

/-! ### Drivers -/

/-- The driver that is found through the input of a node is the one that drives the node by some
    edge. -/
theorem driver?_eq_some (hw : design.Wired) :
    design.driver? destination = some source ↔ ⟨source, destination⟩ ∈ design.drives := by
  rw [hw.registered.driver?_eq_some hw.tabled, mem_drives]

/-- The order of the drives is no matter to the drivers. -/
theorem driver?_ext (hw : design.Wired) (hw' : next.Wired)
    (h : ∀ drive, drive ∈ next.drives ↔ drive ∈ design.drives) : next.driver? = design.driver? := by
  funext id
  refine Option.ext fun source => ?_
  rw [hw.driver?_eq_some, hw'.driver?_eq_some, h]

/-- In wired designs the drivers stay as long as the edge table does, whatever happens to nodes. -/
theorem driver?_congr (hw : design.Wired) (hw' : next.Wired)
    (he : next.edgeTable = design.edgeTable) : next.driver? = design.driver? :=
  hw.driver?_ext hw' fun _ => by rw [drives_congr he]

/-- A node is driven exactly if it is the destination of some edge. -/
theorem driver?_isSome (hw : design.Wired) :
    (design.driver? id).isSome = true ↔ id ∈ design.drives.map (·.destination) := by
  rw [Option.isSome_iff_exists, List.mem_map]
  constructor
  · rintro ⟨source, h⟩
    exact ⟨⟨source, id⟩, hw.driver?_eq_some.mp h, rfl⟩
  · rintro ⟨drive, hmem, rfl⟩
    exact ⟨drive.source, hw.driver?_eq_some.mpr hmem⟩

/-- An edge to a node shows its driver, which is the source of this edge. -/
theorem driver?_of_mem_edges (hw : design.Wired) (hmem : edge ∈ design.edges)
    (hd : edge.destination = some id) : design.driver? id = edge.source := by
  obtain ⟨drive, hdrive⟩ := hw.exists_drive? hmem
  obtain ⟨hs, hd'⟩ := Edge.drive?_eq_some.mp hdrive
  obtain rfl := Option.some.inj (hd'.symm.trans hd)
  rw [hs, hw.driver?_eq_some]
  exact List.mem_filterMap.mpr ⟨edge, hmem, hdrive⟩

/-- A node that no edge leads to has no driver. -/
theorem driver?_eq_none (hw : design.Wired)
    (h : ∀ edge ∈ design.edges, edge.destination ≠ some id) : design.driver? id = none := by
  rw [← Option.not_isSome_iff_eq_none, hw.driver?_isSome, List.mem_map]
  rintro ⟨drive, hmem, rfl⟩
  obtain ⟨edge, hedge, hdrive⟩ := List.mem_filterMap.mp hmem
  exact h edge hedge (Edge.drive?_eq_some.mp hdrive).2

/-- No node is driven twice. Two edges to one node would both be its input, of which it has one. -/
theorem destinations_nodup (hw : design.Wired) : (design.drives.map (·.destination)).Nodup := by
  rw [List.Nodup, List.pairwise_map, drives, List.pairwise_filterMap]
  refine hw.indexed.edges_pairwise.imp_of_mem fun {a b} ha hb hlt => ?_
  intro drive hdrive drive' hdrive' h
  -- Two edges to one node would both be its input.
  have hinput {edge : Edge} {drive : Drive} (hmem : edge ∈ design.edges)
      (hdrive : edge.drive? = some drive) :
      design.destination? edge.id = some drive.destination := by
    rw [destination?, hw.indexed.mem_edges_iff.mp hmem]
    exact (Edge.drive?_eq_some.mp hdrive).2
  have hda := hinput ha hdrive
  have hdb := hinput hb hdrive'
  obtain ⟨node, hn, -⟩ := hw.node?_of_destination? hda
  rw [← hw.input_eq_some hn] at hda
  rw [← h, ← hw.input_eq_some hn] at hdb
  exact Nat.ne_of_lt hlt (Option.some.inj (hda.symm.trans hdb))

/-- A node has no input exactly if nothing drives it. An input is always an edge that is connected
    and has a source, so that the driver can be read off it. -/
theorem input_eq_none_iff_driver? (hw : design.Wired) (hn : design.node? id = some driven) :
    driven.input = none ↔ design.driver? id = none := by
  constructor
  · intro hi
    rw [driver?, hn, Option.bind_some, hi, Option.bind_none]
  · intro h
    cases hi : driven.input with
    | none => rfl
    | some place =>
      obtain ⟨edge, hedge, hd⟩ := hw.edge?_of_input hn hi
      have hmem := mem_edges.mpr ⟨place, hedge⟩
      obtain ⟨_, _, hs, -⟩ := (hw.joins edge hmem).source
      rw [hw.driver?_of_mem_edges hmem hd, hs] at h
      exact absurd h (by simp)

/-! ### Sinks -/

/-- The sinks of a node are the destinations of the edges from it, in the order of their ids. -/
theorem sinks_eq_edges (hw : design.Wired) (id : NodeId) :
    design.sinks id = (design.edges.filter (·.source = some id)).filterMap (·.destination) := by
  have hsinks : design.sinks id = (design.outgoing id).filterMap design.destination? := by
    unfold sinks
    split
    case h_1 node hn => rw [hw.outputs_eq hn]
    -- Without a node in the place, no edge comes from there.
    case h_2 hn => rw [hw.outgoing_eq_nil hn, List.filterMap_nil]
  rw [hsinks, outgoing, edgeIds, List.filterMap_map]
  refine List.filterMap_congr fun edge hmem => ?_
  have hedge := hw.indexed.mem_edges_iff.mp (List.mem_of_mem_filter hmem)
  show design.destination? edge.id = edge.destination
  rw [destination?, hedge, Option.bind_some]

/-- The sinks of a node are what it drives, in the order of the edges. -/
theorem sinks_eq (hw : design.Wired) (id : NodeId) :
    design.sinks id = (design.drives.filter (·.source = id)).map (·.destination) := by
  rw [hw.sinks_eq_edges, drives, List.filter_filterMap, List.map_filterMap, List.filterMap_filter]
  refine List.filterMap_congr fun edge hmem => ?_
  obtain ⟨drive, hdrive⟩ := hw.exists_drive? hmem
  obtain ⟨hs, hd⟩ := Edge.drive?_eq_some.mp hdrive
  by_cases hsource : drive.source = id <;> simp [hdrive, hs, hd, hsource, Option.filter]

/-- In wired designs the sinks stay as long as the edge table does, and so does their order. -/
theorem sinks_congr (hw : design.Wired) (hw' : next.Wired)
    (he : next.edgeTable = design.edgeTable) : next.sinks = design.sinks := by
  funext id
  rw [hw.sinks_eq, hw'.sinks_eq, drives_congr he]

/-! ### Edges -/

/-- There are as many edges as drives, since every connected edge has two ends. -/
theorem edgeCount_eq (hw : design.Wired) : design.edgeCount = design.drives.length := by
  rw [edgeCount, drives, List.length_filterMap_eq_countP, eq_comm, List.countP_eq_length]
  intro edge hmem
  obtain ⟨drive, hdrive⟩ := hw.exists_drive? hmem
  rw [hdrive, Option.isSome_some]

/-- A node that gets a driver loses the one that it has, and the others keep theirs. The new drive
    comes last, as its edge has the greatest id. -/
theorem drives_withDriver (hw : design.Wired) (hdriven : design.node? destination = some driven) :
    (design.withDriver destination source driver driven).drives =
      design.drives.filter (·.destination ≠ destination) ++ [⟨source, destination⟩] := by
  have hmade : (design.nextEdge source destination driver.name driven.name).drive? =
      some ⟨source, destination⟩ := rfl
  rw [drives, hw.edges_withDriver hdriven, List.filterMap_append, List.filterMap_cons_some hmade,
    List.filterMap_nil, drives, List.filter_filterMap, List.filterMap_filter]
  refine congrArg (· ++ _) (List.filterMap_congr fun edge hmem => ?_)
  obtain ⟨drive, hdrive⟩ := hw.exists_drive? hmem
  obtain ⟨-, hd⟩ := Edge.drive?_eq_some.mp hdrive
  by_cases hdestination : drive.destination = destination <;>
    simp [hdrive, hd, hdestination, Option.filter]

end Wired

end Design

end Schematic
