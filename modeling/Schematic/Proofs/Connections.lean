import Mathlib.Data.List.Forall2
import Mathlib.Data.List.Induction
import Schematic.Proofs.Construction

namespace Schematic

open Netlist

/-!
# Connections and edges

Of the connections to one node only the last one is left, and its edge has the place that the
connection has among all connections.

* `Netlist.surviving` — the connections that no later one replaces, with their places;
* `Netlist.surviving_concat` — one more connection removes the earlier one to the same node;
* `Netlist.lastTo` — the last connection to a name, which is the surviving one;
* `Design.Stands`, `Design.Realizes` — what an operand stands for in a design, and which edge a
  connection is there;
* `Design.realizes_surviving` — the edges of a built design are those of the surviving connections.

A new connection to a node takes the edge of the earlier one away and comes last; the other edges
keep their order. On the side of the netlist the same happens to the list of surviving connections
when one more is appended. So the two lists are built up in step, and the correspondence is proved
by induction on the connections from the last one, with the places of edges given away one after the
other. What is said about drivers and sinks later on follows from the correspondence alone.
-/

namespace Netlist

variable {connections : List Connection} {connection : Connection} {place : Connection × EdgeId}

/-! ### Surviving connections -/

/-- The connections that no later connection to the same node replaces, in order, with their places
    among all connections. -/
def surviving (connections : List Connection) : List (Connection × EdgeId) :=
  connections.zipIdx.filter fun place =>
    (connections.drop (place.2 + 1)).all (·.destination ≠ place.1.destination)

/-- The last connection to the node of a name, with its place among all connections. -/
def lastTo (connections : List Connection) (name : String) : Option (Connection × EdgeId) :=
  (connections.zipIdx.filter (·.1.destination = name)).getLast?

/-- A new connection removes the earlier one to the same node, and survives itself. -/
theorem surviving_concat (connections : List Connection) (connection : Connection) :
    surviving (connections ++ [connection]) =
      (surviving connections).filter (·.1.destination ≠ connection.destination) ++
        [(connection, connections.length)] := by
  have hold : connections.zipIdx.filter (fun place =>
      ((connections ++ [connection]).drop (place.2 + 1)).all
        (·.destination ≠ place.1.destination)) =
      (surviving connections).filter (·.1.destination ≠ connection.destination) := by
    rw [surviving, List.filter_filter]
    refine List.filter_congr fun place hmem => ?_
    -- What comes behind an old connection is what came behind it before, and the new one.
    have hlt : place.2 + 1 ≤ connections.length := by
      have hmem' : (place.1, place.2) ∈ connections.zipIdx := hmem
      obtain ⟨hlt, -⟩ := List.getElem?_eq_some_iff.mp (List.mem_zipIdx_iff_getElem?.mp hmem')
      exact hlt
    rw [List.drop_append_of_le_length hlt, List.all_append, Bool.and_comm]
    simp [eq_comm]
  have hnew : (connections ++ [connection]).drop (connections.length + 1) = [] := by simp
  rw [surviving, List.zipIdx_append, List.filter_append, hold]
  simp [hnew]

/-- A surviving connection is one of the connections. -/
theorem mem_of_mem_surviving (h : place ∈ surviving connections) : place.1 ∈ connections := by
  obtain ⟨hmem, -⟩ := List.mem_filter.mp h
  exact List.fst_mem_of_mem_zipIdx hmem

/-- The last connection to a name is the one that survives. -/
theorem lastTo_eq_some {name : String} :
    lastTo connections name = some place ↔
      place ∈ surviving connections ∧ place.1.destination = name := by
  -- The induction takes the connections from the end, as `surviving_concat` does.
  induction connections using List.reverseRecOn with
  | nil => simp [lastTo, surviving]
  | append_singleton connections connection ih =>
    have hlast : lastTo (connections ++ [connection]) name =
        if connection.destination = name then some (connection, connections.length)
        else lastTo connections name := by
      unfold lastTo
      by_cases h : connection.destination = name <;> simp [List.zipIdx_append, h]
    rw [hlast, surviving_concat]
    by_cases h : connection.destination = name
    · rw [if_pos h]
      simp only [List.mem_append, List.mem_filter, List.mem_singleton, decide_eq_true_eq]
      constructor
      · rintro ⟨⟩
        exact ⟨.inr rfl, h⟩
      · rintro ⟨⟨-, hne⟩ | rfl, hname⟩
        · exact absurd (hname.trans h.symm) hne
        · rfl
    · rw [if_neg h, ih]
      simp only [List.mem_append, List.mem_filter, List.mem_singleton, decide_eq_true_eq]
      constructor
      · rintro ⟨hmem, rfl⟩
        exact ⟨.inl ⟨hmem, Ne.symm h⟩, rfl⟩
      · rintro ⟨⟨hmem, -⟩ | rfl, hname⟩
        · exact ⟨hmem, hname⟩
        · exact absurd hname h

/-- A name has no last connection exactly if no connection leads to it. -/
theorem lastTo_eq_none {name : String} :
    lastTo connections name = none ↔ name ∉ connections.map (·.destination) := by
  rw [lastTo, List.getLast?_eq_none_iff, List.filter_eq_nil_iff, List.mem_map]
  constructor
  · -- A connection to the name would stand somewhere in the numbered list, and so be a last one.
    rintro h ⟨connection, hmem, rfl⟩
    obtain ⟨k, hk⟩ := List.mem_iff_getElem?.mp hmem
    exact h (connection, k) (List.mem_zipIdx_iff_getElem?.mpr hk) (by simp)
  · -- Places only number the connections, so that a place with the name gives a connection.
    intro h place hmem hname
    exact h ⟨place.1, List.fst_mem_of_mem_zipIdx hmem, by simpa using hname⟩

end Netlist

namespace Design

variable {design next : Design} {id : NodeId} {name : String} {edge : Edge}
  {place : Connection × EdgeId}

/-! ### Members of related lists -/

/-- Each member on the left of a correspondence has a partner on the right. -/
theorem exists_right_of_mem {α β : Type} {R : α → β → Prop} {xs : List α} {ys : List β} {x : α}
    (h : List.Forall₂ R xs ys) (hx : x ∈ xs) : ∃ y ∈ ys, R x y := by
  induction h with
  | nil => exact absurd hx List.not_mem_nil
  | @cons a b xs ys hab _ ih =>
    rcases List.mem_cons.mp hx with rfl | hx
    · exact ⟨b, List.mem_cons_self, hab⟩
    · obtain ⟨y, hy, hr⟩ := ih hx
      exact ⟨y, List.mem_cons_of_mem b hy, hr⟩

/-- Each member on the right of a correspondence has a partner on the left. -/
theorem exists_left_of_mem {α β : Type} {R : α → β → Prop} {xs : List α} {ys : List β} {y : β}
    (h : List.Forall₂ R xs ys) (hy : y ∈ ys) : ∃ x ∈ xs, R x y :=
  exists_right_of_mem h.flip hy

/-- Members in the same place of two corresponding lists are partners. A place of the first list is
    also one of the second. -/
theorem exists_getElem?_of_forall₂ {α β : Type} {R : α → β → Prop} {xs : List α} {ys : List β}
    {k : Nat} {x : α} (h : List.Forall₂ R xs ys) (hx : xs[k]? = some x) :
    ∃ y, ys[k]? = some y ∧ R x y := by
  induction h generalizing k with
  | nil => exact absurd hx (by simp)
  | @cons a b xs ys hab _ ih =>
    cases k with
    | zero => exact ⟨b, rfl, by simpa using Option.some.inj hx ▸ hab⟩
    | succ k => exact ih hx

/-! ### Edges of connections -/

/-- The node in the place is the one that the operand stands for: the declared node of the name, or
    a literal of the constant. -/
def Stands (design : Design) : Operand → NodeId → Prop
  | .node name, id => design.Named name id
  | .constant value, id => design.Holds value id

/-- The edge is the one of the connection in the given place: it has this place as its id, leads to
    the node of the destination, and comes from what the source stands for. -/
structure Realizes (design : Design) (place : Connection × EdgeId) (edge : Edge) : Prop where
  /-- The id is the place of the connection. -/
  id_eq : edge.id = place.2
  /-- The edge leads to the node that is declared as the destination. -/
  destination : ∃ id, edge.destination = some id ∧ design.Named place.1.destination id
  /-- The edge comes from the node that the source stands for. -/
  source : ∃ id, edge.source = some id ∧ design.Stands place.1.source id

/-- What an operand stands for stays what it is as long as nodes do. -/
theorem Extends.stands (h : design.Extends next) {operand : Operand}
    (hs : design.Stands operand id) : next.Stands operand id := by
  cases operand with
  | node => exact h.named hs
  | constant => exact h.holds hs

/-- An edge stays the one of its connection as long as nodes do. -/
theorem Extends.realizes (h : design.Extends next) (hr : design.Realizes place edge) :
    next.Realizes place edge := by
  obtain ⟨destination, hd, hnamed⟩ := hr.destination
  obtain ⟨source, hs, hstands⟩ := hr.source
  exact ⟨hr.id_eq, ⟨destination, hd, h.named hnamed⟩, source, hs, h.stands hstands⟩

/-- The node that an operand is resolved to is the one that it stands for. -/
theorem Resolves.stands {operand : Operand} (h : design.Resolves operand id next)
    (hc : design.Consistent) : next.Stands operand id := by
  cases h with
  | node h => exact (hc.catalogued _ id).mp h
  | constant h => exact h.holds hc.notes

/-- A declared node bears one name only. -/
theorem Named.name_unique {other : String} (h : design.Named name id)
    (h' : design.Named other id) : name = other := by
  obtain ⟨node, hn, -, rfl⟩ := h
  obtain ⟨node', hn', -, rfl⟩ := h'
  obtain rfl : node = node' := Option.some.inj (hn.symm.trans hn')
  rfl

/-- An edge leads to a node exactly if the connection does, by the name of the node. Names and
    places of declared nodes match one to one. -/
theorem Realizes.destination_eq (hr : design.Realizes place edge) (hc : design.Catalogued)
    (hn : design.Named name id) :
    edge.destination = some id ↔ place.1.destination = name := by
  obtain ⟨destination, hd, hnamed⟩ := hr.destination
  rw [hd, Option.some_inj]
  constructor
  · rintro rfl
    exact hnamed.name_unique hn
  · rintro rfl
    exact hc.unique hnamed hn

/-- What one more connection does to the edges: those that lead to its destination go, and its own
    edge comes last with the next id. A literal that is made for the source is not connected yet. -/
theorem Connects.edges {connection : Connection} (h : design.Connects connection next)
    (hc : design.Consistent) :
    next.edgeTable.size = design.edgeTable.size + 1 ∧
      ∃ edge destination, design.Named connection.destination destination ∧
        next.Realizes (connection, design.edgeTable.size) edge ∧
        next.edges = design.edges.filter (·.destination ≠ some destination) ++ [edge] := by
  obtain @⟨destination, source, mid, driver, driven, hd, hs, hdriver, hdriven, hl, -⟩ := h
  have hadds := hs.addsLiterals
  -- The literal of a constant source is made before the edge, and makes no difference to the edges.
  have hmid := hc.addsLiterals hadds
  have hext := Extends.withDriver mid destination source driver driven
  have hnamed : design.Named connection.destination destination := (hc.catalogued _ _).mp hd
  refine ⟨by rw [size_edgeTable_withDriver, hadds.edgeTable], ?_⟩
  refine ⟨mid.nextEdge source destination driver.name driven.name, destination, hnamed, ?_, ?_⟩
  · refine ⟨?_, ⟨destination, rfl, hext.named (hadds.toExtends.named hnamed)⟩,
      source, rfl, hext.stands (hs.stands hc)⟩
    show mid.edgeTable.size = design.edgeTable.size
    rw [hadds.edgeTable]
  · rw [hmid.wired.edges_withDriver hdriven, edges_congr hadds.edgeTable]

/-- Connections do not change the policy. -/
theorem policy_of_connects {start : Design} {connections : List Connection}
    (h : Chain Connects start connections next) : next.policy = start.policy :=
  h.eq_start Connects.policy

/-- Connections declare no type. -/
theorem declared_of_connects {start : Design} {connections : List Connection}
    (h : Chain Connects start connections next) : next.declared = start.declared :=
  h.eq_start Connects.declared

/-- Connections leave every node in its place, and only add to its edges or take from them. -/
theorem extends_of_connects {start : Design} {connections : List Connection}
    (h : Chain Connects start connections next) : start.Extends next :=
  h.keep (fun hx ih => ih.trans hx.toExtends) (.refl start)

/-- What keeps look-ups, literals and wiring in agreement is there behind the connections if it was
    there before them. -/
theorem consistent_of_connects {start : Design} {connections : List Connection}
    (h : Chain Connects start connections next) (hstart : start.Consistent) : next.Consistent :=
  h.keep Connects.consistent hstart

/-- The edges of a built design are those of the surviving connections, in the same order.
    Connection by connection, an edge is dropped exactly if its connection stops surviving, and one
    is added at the end. -/
theorem realizes_surviving {start : Design} {connections : List Connection}
    (h : Chain Connects start connections next) (hstart : start.Consistent)
    (hempty : start.edgeTable = #[]) :
    next.edgeTable.size = connections.length ∧
      List.Forall₂ next.Realizes (surviving connections) next.edges := by
  induction h with
  | nil =>
    refine ⟨by rw [hempty]; rfl, ?_⟩
    have hedges : start.edges = [] := by rw [edges, hempty]; rfl
    rw [hedges]
    exact .nil
  | @concat connections connection mid next hchain hx ih =>
    obtain ⟨hsize, hedges⟩ := ih
    have hmid := consistent_of_connects hchain hstart
    obtain ⟨hsize', edge, destination, hnamed, hr, hedges'⟩ := hx.edges hmid
    refine ⟨by rw [hsize', hsize, List.length_append]; rfl, ?_⟩
    rw [surviving_concat, hedges', ← hsize]
    -- The same connections and edges are removed, since names and places of nodes match.
    have hfilter : List.Forall₂ mid.Realizes
        ((surviving connections).filter (·.1.destination ≠ connection.destination))
        (mid.edges.filter (·.destination ≠ some destination)) := by
      apply List.rel_filter ?_ hedges
      intro place edge hrealizes
      simp only [decide_eq_true_eq, ne_eq, hrealizes.destination_eq hmid.catalogued hnamed]
    exact List.rel_append (hfilter.imp fun _ _ => hx.toExtends.realizes) (.cons hr .nil)

/-- In a built design, a declared node has a driver exactly if there is a connection to it. However
    often it is replaced, the last connection to the node survives. -/
theorem input_isSome {start : Design} {connections : List Connection} {node : Node}
    (h : Chain Connects start connections next) (hstart : start.Consistent)
    (hempty : start.edgeTable = #[]) (hnamed : next.Named name id)
    (hn : next.node? id = some node) :
    node.input.isSome = true ↔ name ∈ connections.map (·.destination) := by
  have hc := consistent_of_connects h hstart
  obtain ⟨-, hedges⟩ := realizes_surviving h hstart hempty
  rw [Option.isSome_iff_exists, List.mem_map]
  constructor
  · -- The driver is a connected edge, and every such edge comes from a connection.
    rintro ⟨k, hi⟩
    obtain ⟨edge, hedge, hd⟩ := hc.wired.edge?_of_input hn hi
    obtain ⟨place, hplace, hr⟩ := exists_left_of_mem hedges (mem_edges.mpr ⟨k, hedge⟩)
    exact ⟨place.1, mem_of_mem_surviving hplace, (hr.destination_eq hc.catalogued hnamed).mp hd⟩
  · -- Of the connections to the node one has survived, and so its edge is connected.
    rintro ⟨connection, hmem, rfl⟩
    cases hlast : lastTo connections connection.destination with
    | none => exact absurd (List.mem_map_of_mem hmem) (lastTo_eq_none.mp hlast)
    | some place =>
      obtain ⟨hplace, hname⟩ := lastTo_eq_some.mp hlast
      obtain ⟨edge, hedge, hr⟩ := exists_right_of_mem hedges hplace
      rw [hc.wired.indexed.mem_edges_iff] at hedge
      have hd := (hr.destination_eq hc.catalogued hnamed).mpr hname
      refine ⟨edge.id, (hc.wired.input_eq_some hn).mpr ?_⟩
      rw [destination?, hedge, Option.bind_some, hd]

/-- Where drivers are not replaced, no two connections lead to one node, since the later one would
    be refused for the driver that the earlier one has left there. -/
theorem destinations_nodup {start : Design} {connections : List Connection}
    (h : Chain Connects start connections next) (hstart : start.Consistent)
    (hempty : start.edgeTable = #[]) (hp : start.policy.replacement = .reject) :
    (connections.map (·.destination)).Nodup := by
  rw [← List.filterMap_eq_map]
  apply h.nodup
  rintro earlier connection mid behind _ hchain hx ⟨⟩ hmem
  rw [List.filterMap_eq_map] at hmem
  have hp' : mid.policy.replacement = .reject := by
    rw [policy_of_connects hchain, hp]
  obtain ⟨id, node, hnamed, hn, hi⟩ := hx.input_eq_none hp' (consistent_of_connects hchain hstart)
  -- An earlier connection to the same node would have left a driver there.
  have hdriven := (input_isSome hchain hstart hempty hnamed hn).mpr hmem
  rw [hi] at hdriven
  exact absurd hdriven (by simp)

end Design

end Schematic
