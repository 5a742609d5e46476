import Mathlib.Data.List.Sort
import Mathlib.Order.Bounds.Defs
import Schematic.Proofs.Validation

namespace Schematic.Design

/-!
# Lists of nodes

The nodes with some property, by their places and in the order of these.

* `idsWhere` — the places of the nodes that have it;
* `mem_idsWhere`, `idsWhere_pairwise` — which they are, and that they are in order. This fixes the
  list (`idsWhere_ext`);
* `isLeast_of_head?_idsWhere` — the list begins with the first of them;
* `idsWhere_push` — a new node comes last;
* `Extends.idsWhere_eq` — where no node is new, the list stays the same, unless the property is one
  of edges.

A design is asked for lists of its nodes in several places: those of a kind, those without a driver,
those that want a value. All of these are one list with a property as its parameter. It is sorted by
places, and two sorted lists with the same members are equal; so a statement about such a list is
proved by saying which nodes are in it, and a change to the design is followed by saying which nodes
gained or lost the property.
-/

variable {design next : Design} {select : Node → Bool} {id : NodeId} {node : Node}

/-- The places of the nodes that `select` holds of, in order. -/
def idsWhere (design : Design) (select : Node → Bool) : List NodeId :=
  (design.placesWhere select).map (·.1)

/-- A place is in the list exactly if the node in it has the property. -/
theorem mem_idsWhere :
    id ∈ design.idsWhere select ↔ ∃ node, design.node? id = some node ∧ select node = true := by
  rw [idsWhere, placesWhere, List.mem_map]
  constructor
  · rintro ⟨⟨id, node⟩, hmem, rfl⟩
    obtain ⟨hplace, hselect⟩ := List.mem_filter.mp hmem
    exact ⟨node, mem_places.mp hplace, hselect⟩
  · rintro ⟨node, hn, hselect⟩
    exact ⟨(id, node), List.mem_filter.mpr ⟨mem_places.mpr hn, hselect⟩, rfl⟩

/-- The list is in the order of places, without repetition. -/
theorem idsWhere_pairwise (design : Design) (select : Node → Bool) :
    (design.idsWhere select).Pairwise (· < ·) := by
  -- The list is a part of the list of all places, which are numbered from zero on.
  have hall : (design.places.map (·.1)).Pairwise (· < ·) := by
    have hplaces : design.places.map (·.1) = design.nodes.toList.zipIdx.map (·.2) := by
      rw [places, List.map_map]
      rfl
    rw [hplaces, List.zipIdx_map_snd]
    exact List.pairwise_lt_range'
  exact hall.sublist (List.filter_sublist.map _)

/-- The first node of the list is the first one that has the property. -/
theorem isLeast_of_head?_idsWhere (h : (design.idsWhere select).head? = some id) :
    IsLeast {id | ∃ node, design.node? id = some node ∧ select node = true} id := by
  obtain ⟨others, hids⟩ := List.head?_eq_some_iff.mp h
  have hsorted := design.idsWhere_pairwise select
  rw [hids, List.pairwise_cons] at hsorted
  refine ⟨mem_idsWhere.mp (by rw [hids]; exact List.mem_cons_self), fun other hother => ?_⟩
  -- Whatever else has the property is in the list, and so comes behind its head.
  have hmem : other ∈ id :: others := hids ▸ mem_idsWhere.mpr hother
  rcases List.mem_cons.mp hmem with rfl | hlater
  · exact Nat.le_refl other
  · exact Nat.le_of_lt (hsorted.1 other hlater)

/-- A list in the order of places is fixed by its members. -/
theorem idsWhere_ext {ids : List NodeId} (hids : ids.Pairwise (· < ·))
    (h : ∀ id, id ∈ ids ↔ ∃ node, design.node? id = some node ∧ select node = true) :
    design.idsWhere select = ids :=
  (design.idsWhere_pairwise select).eq_of_mem_iff hids fun id => by rw [mem_idsWhere, h]

/-- A new node comes last, if it is selected at all, and the others stay where they are. -/
theorem idsWhere_push (hn : next.nodes = design.nodes.push node) (select : Node → Bool) :
    next.idsWhere select =
      design.idsWhere select ++ if select node then [design.nodeCount] else [] := by
  have hplaces : next.places = design.places ++ [(design.nodeCount, node)] := by
    rw [places, hn, Array.toList_push, List.zipIdx_append, List.map_append, ← places]
    simp [nodeCount]
  rw [idsWhere, placesWhere, hplaces, List.filter_append, List.map_append]
  by_cases h : select node <;> simp [h, idsWhere, placesWhere]

/-- The lists depend on the nodes alone. -/
theorem idsWhere_congr (hn : next.nodes = design.nodes) : next.idsWhere = design.idsWhere := by
  funext select
  rw [idsWhere, placesWhere, places, hn, ← places, ← placesWhere, ← idsWhere]

/-- What does not depend on edges holds of the same nodes, if no node is new. So a list of nodes by
    kind or name is not changed by connecting anything. -/
theorem Extends.idsWhere_eq (h : design.Extends next) (hc : next.nodeCount = design.nodeCount)
    (hselect : ∀ node, select node.detached = select node) :
    next.idsWhere select = design.idsWhere select := by
  refine idsWhere_ext (design.idsWhere_pairwise select) fun id => ?_
  rw [mem_idsWhere]
  constructor
  · rintro ⟨node, hn, hs⟩
    obtain ⟨other, ho, hdet⟩ := h id node hn
    exact ⟨other, ho, (Node.congr_detached hselect hdet).trans hs⟩
  · rintro ⟨other, ho, hs⟩
    obtain ⟨node, hn, hdet⟩ := h.detached_of_nodeCount_eq hc ho
    exact ⟨node, hn, (Node.congr_detached hselect hdet).symm.trans hs⟩

end Schematic.Design
