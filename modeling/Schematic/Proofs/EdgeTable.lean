import Mathlib.Data.List.Basic
import Schematic.Design.Update

namespace Schematic.Design

/-!
# The edge table

What the edge table says about the neighbours of a node, independently of the pins of the nodes.

* `outgoing`, `incoming` — the connected edges on either side of a node;
* `Indexed` — every connected edge carries its own place, so that the connected edges are known by
  their ids and stand in the order of these (`Indexed.edges_pairwise`);
* `edges_link`, `edges_unlink` — a new edge comes last, and a removed one leaves the others as they
  are.

Edges are written down twice: in the table, and in the pins of their two ends. The table alone is
enough to say which edges meet a node, and it is the simpler of the two, since an edge is added at
its end and taken out in its place. Whatever a list of edges is asked for here, it comes from the
table as a sublist in the order of ids; two such lists are equal as soon as they have the same
members (`edges_ext`), and no proof has to follow how a list was built up.
-/

variable {design : Design}

/-- The ids of the connected edges that `select` holds of, in order. -/
def edgeIds (design : Design) (select : Edge → Bool) : List EdgeId :=
  (design.edges.filter select).map (·.id)

/-- The ids of the connected edges whose source is the given node, in order. -/
def outgoing (design : Design) (id : NodeId) : List EdgeId :=
  design.edgeIds (·.source = some id)

/-- The ids of the connected edges whose destination is the given node, in order. -/
def incoming (design : Design) (id : NodeId) : List EdgeId :=
  design.edgeIds (·.destination = some id)

/-- Every connected edge carries the place that it stands in as its id. -/
def Indexed (design : Design) : Prop :=
  ∀ place edge, design.edge? place = some edge → edge.id = place

/-! ### Connected edges and their places -/

/-- An edge is found in a place exactly if the place is in the table and has not been emptied. -/
theorem edge?_eq_some {place : EdgeId} {edge : Edge} :
    design.edge? place = some edge ↔ design.edgeTable[place]? = some (some edge) := by
  simp [edge?, Option.join_eq_some_iff]

/-- The place of a connected edge lies inside the table. -/
theorem lt_size_of_edge? {place : EdgeId} {edge : Edge} (h : design.edge? place = some edge) :
    place < design.edgeTable.size := by
  rw [edge?_eq_some] at h
  obtain ⟨hlt, -⟩ := Array.getElem?_eq_some_iff.mp h
  exact hlt

/-- The connected edges are those that some place of the table holds. -/
theorem mem_edges {edge : Edge} :
    edge ∈ design.edges ↔ ∃ place, design.edge? place = some edge := by
  rw [edges, List.mem_filterMap]
  simp only [id_eq, exists_eq_right, edge?_eq_some, List.mem_iff_getElem?, Array.getElem?_toList]

/-- Where every edge carries its place, a connected edge is one that is found under its own id. -/
theorem Indexed.mem_edges_iff (hi : design.Indexed) {edge : Edge} :
    edge ∈ design.edges ↔ design.edge? edge.id = some edge := by
  rw [mem_edges]
  constructor
  · rintro ⟨place, h⟩
    rwa [hi place edge h]
  · intro h
    exact ⟨edge.id, h⟩

/-- The connected edges stand in the order of their ids, as each stands in the place of its id and
    empty places are left out. -/
theorem Indexed.edges_pairwise (hi : design.Indexed) :
    design.edges.Pairwise (fun a b => a.id < b.id) := by
  rw [edges, List.pairwise_filterMap, List.pairwise_iff_getElem]
  -- Of two edges in the list, each carries its own place, so that the places order the ids.
  intro i j hilt hjlt hij a ha b hb
  have hai : a.id = i := hi i a (edge?_eq_some.mpr (Array.getElem?_eq_some_iff.mpr ⟨hilt, ha⟩))
  have hbj : b.id = j := hi j b (edge?_eq_some.mpr (Array.getElem?_eq_some_iff.mpr ⟨hjlt, hb⟩))
  rwa [hai, hbj]

/-- Two lists of edges in the order of their ids are equal if they have the same members. -/
theorem edges_ext {xs ys : List Edge} (hx : xs.Pairwise (fun a b => a.id < b.id))
    (hy : ys.Pairwise (fun a b => a.id < b.id)) (h : ∀ edge, edge ∈ xs ↔ edge ∈ ys) : xs = ys := by
  -- Ids in strict order do not repeat, so that members and order together fix the list.
  have nodup : ∀ {zs : List Edge}, zs.Pairwise (fun a b => a.id < b.id) → zs.Nodup := by
    intro zs hz
    refine hz.imp ?_
    rintro a _ hlt rfl
    exact Nat.lt_irrefl _ hlt
  have hperm : xs.Perm ys := (List.perm_ext_iff_of_nodup (nodup hx) (nodup hy)).mpr h
  exact hperm.eq_of_pairwise (fun a b _ _ hab hba => absurd hab (Nat.lt_asymm hba)) hx hy

/-- The connected edges depend on the edge table alone. -/
theorem edge?_congr {next : Design} (h : next.edgeTable = design.edgeTable) :
    next.edge? = design.edge? := by
  funext place
  rw [edge?, h, ← edge?]

/-- The list of connected edges depends on the edge table alone. -/
theorem edges_congr {next : Design} (h : next.edgeTable = design.edgeTable) :
    next.edges = design.edges := by
  rw [edges, h, ← edges]

/-- The ids of selected edges depend on the edge table alone, whatever selects them. -/
theorem edgeIds_congr {next : Design} (h : next.edgeTable = design.edgeTable) :
    next.edgeIds = design.edgeIds := by
  funext select
  rw [edgeIds, edges_congr h, ← edgeIds]

/-! ### Sides of a node -/

/-- An id is among the selected ones exactly if there is a connected edge in that place and it is
    selected. -/
theorem Indexed.mem_edgeIds (hi : design.Indexed) {select : Edge → Bool} {id : EdgeId} :
    id ∈ design.edgeIds select ↔ ∃ edge, design.edge? id = some edge ∧ select edge = true := by
  simp only [edgeIds, List.mem_map, List.mem_filter, hi.mem_edges_iff]
  constructor
  · rintro ⟨edge, ⟨hedge, hsel⟩, rfl⟩
    exact ⟨edge, hedge, hsel⟩
  · rintro ⟨edge, hedge, hsel⟩
    obtain rfl := hi id edge hedge
    exact ⟨edge, ⟨hedge, hsel⟩, rfl⟩

/-- The selected ids stand in strictly increasing order, as the edges do. -/
theorem Indexed.edgeIds_pairwise (hi : design.Indexed) (select : Edge → Bool) :
    (design.edgeIds select).Pairwise (· < ·) := by
  rw [edgeIds, List.pairwise_map]
  exact hi.edges_pairwise.filter _

/-- No id is selected twice, since the ids increase. -/
theorem Indexed.edgeIds_nodup (hi : design.Indexed) (select : Edge → Bool) :
    (design.edgeIds select).Nodup :=
  (hi.edgeIds_pairwise select).imp fun hlt => Nat.ne_of_lt hlt

/-- The edges that leave a node are those whose source it is. -/
theorem Indexed.mem_outgoing (hi : design.Indexed) {id : EdgeId} {node : NodeId} :
    id ∈ design.outgoing node ↔ design.source? id = some node := by
  simp [outgoing, hi.mem_edgeIds, source?, Option.bind_eq_some_iff]

/-- The edges that enter a node are those whose destination it is. -/
theorem Indexed.mem_incoming (hi : design.Indexed) {id : EdgeId} {node : NodeId} :
    id ∈ design.incoming node ↔ design.destination? id = some node := by
  simp [incoming, hi.mem_edgeIds, destination?, Option.bind_eq_some_iff]

/-! ### A new edge -/

/-- A new edge is appended to the table, and the pins of its ends do not concern the table. -/
@[simp] theorem edgeTable_link (design : Design) (edge : Edge) (source destination : NodeId) :
    (design.link edge source destination).edgeTable = design.edgeTable.push (some edge) := rfl

/-- The new edge is found in the first place behind the table, and every other place holds what it
    held. -/
theorem edge?_link (design : Design) (edge : Edge) (source destination : NodeId) (place : EdgeId) :
    (design.link edge source destination).edge? place =
      if place = design.edgeTable.size then some edge else design.edge? place := by
  simp only [edge?, edgeTable_link, Array.getElem?_push]
  split <;> rfl

/-- A new edge is the last of the connected edges. -/
theorem edges_link (design : Design) (edge : Edge) (source destination : NodeId) :
    (design.link edge source destination).edges = design.edges ++ [edge] := by
  simp [edges]

/-- A new edge, if it is selected, comes last among the selected ids. -/
theorem edgeIds_link (design : Design) (edge : Edge) (source destination : NodeId)
    (select : Edge → Bool) :
    (design.link edge source destination).edgeIds select =
      design.edgeIds select ++ if select edge then [edge.id] else [] := by
  rw [edgeIds, edges_link, List.filter_append, List.map_append]
  by_cases h : select edge <;> simp [edgeIds, h]

/-- A new edge comes last among those that leave its source, and no other node has an edge more. -/
theorem outgoing_link (design : Design) (edge : Edge) (source destination id : NodeId) :
    (design.link edge source destination).outgoing id =
      design.outgoing id ++ if edge.source = some id then [edge.id] else [] := by
  simp only [outgoing, edgeIds_link, decide_eq_true_eq]

/-- A new edge comes last among those that enter its destination, and no other node has an edge
    more. -/
theorem incoming_link (design : Design) (edge : Edge) (source destination id : NodeId) :
    (design.link edge source destination).incoming id =
      design.incoming id ++ if edge.destination = some id then [edge.id] else [] := by
  simp only [incoming, edgeIds_link, decide_eq_true_eq]

/-- Edges carry their places still, if the new edge carries the first place behind the table. -/
theorem Indexed.link (hi : design.Indexed) {edge : Edge} (source destination : NodeId)
    (hid : edge.id = design.edgeTable.size) : (design.link edge source destination).Indexed := by
  intro place other h
  rw [edge?_link] at h
  split at h
  case isTrue hplace =>
    obtain rfl := Option.some.inj h
    rw [hid, hplace]
  case isFalse => exact hi place other h

/-! ### A removed edge -/

/-- A removed edge leaves an empty place in the table, so that no place is ever given away again. -/
@[simp] theorem edgeTable_unlink (design : Design) (id : EdgeId) (edge : Edge) :
    (design.unlink id edge).edgeTable = design.edgeTable.setIfInBounds id none := by
  obtain ⟨_, _, _ | source, _ | destination⟩ := edge <;> rfl

/-- The place of the removed edge is empty, and every other place holds what it held. -/
theorem edge?_unlink (design : Design) (id : EdgeId) (edge : Edge) (place : EdgeId) :
    (design.unlink id edge).edge? place =
      if place = id then none else design.edge? place := by
  simp only [edge?, edgeTable_unlink, Array.getElem?_setIfInBounds]
  by_cases h : id = place
  · -- A place behind the table is empty before and after.
    subst h
    by_cases hlt : id < design.edgeTable.size <;> simp [hlt]
  · rw [if_neg h, if_neg (Ne.symm h)]

/-- Edges carry their places still when one of them is gone, since its place stays empty and no
    other edge moves up. -/
theorem Indexed.unlink (hi : design.Indexed) (id : EdgeId) (edge : Edge) :
    (design.unlink id edge).Indexed := by
  intro place other h
  rw [edge?_unlink] at h
  split at h
  case isTrue => exact absurd h (by simp)
  case isFalse => exact hi place other h

/-- The connected edges are those from before without the removed one, in the same order. -/
theorem Indexed.edges_unlink (hi : design.Indexed) (id : EdgeId) (edge : Edge) :
    (design.unlink id edge).edges = design.edges.filter (·.id ≠ id) := by
  refine edges_ext (hi.unlink id edge).edges_pairwise (hi.edges_pairwise.filter _) ?_
  -- Both sides are in the order of their ids, and it is left to compare the members.
  intro other
  rw [(hi.unlink id edge).mem_edges_iff, edge?_unlink, List.mem_filter, hi.mem_edges_iff]
  by_cases h : other.id = id <;> simp [h]

/-- The selected ids are those from before without the removed one, in the same order. -/
theorem Indexed.edgeIds_unlink (hi : design.Indexed) (id : EdgeId) (edge : Edge)
    (select : Edge → Bool) :
    (design.unlink id edge).edgeIds select = (design.edgeIds select).filter (· ≠ id) := by
  rw [edgeIds, hi.edges_unlink, edgeIds, List.filter_map, List.filter_filter, List.filter_filter]
  simp only [Function.comp_def, Bool.and_comm]

end Schematic.Design
