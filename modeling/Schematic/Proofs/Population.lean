import Schematic.Proofs.LastConnection
import Schematic.Proofs.Uses

namespace Schematic

open Netlist

/-!
# The nodes of a built design

A built design has one node for each declaration and the literals of its constants, and no others.

* `Design.Plays`, `Design.Embodies` — a node is what its declaration says;
* `Design.members` — the nodes that are no literals. Each declaration adds one
  (`members_of_nodes`), and connections add none (`members_of_connects`);
* `Accounts.sinks` — the literal of a single use drives at most one node;
* `Netlist.Populates`, `Netlist.populates_of_toDesign` — all nodes of a built design.

The nodes that are no literals are counted off against the declarations: each declaration appends
one, and nothing else does. For the literals, the accounts of the uses are taken as they stand
behind the last line. That a literal of one's own drives one node at most is an argument about
places: an edge from it comes from the use in the same place as its connection, this use is the only
one of the literal, and so there is one connection that the edge can have come from.
-/

namespace Design

variable {design next : Design} {id : NodeId} {node : Node} {name : String} {form : NodeForm}
  {decl : NodeDecl} {operand : Operand} {uses made : List (Operand × NodeId)}

/-- The role is the one that the form of a declaration asks for. -/
inductive Plays (design : Design) : NodeForm → Role → Prop
  | port (direction : Direction) : Plays design (.port direction) (.port direction)
  | signal : Plays design .signal .signal
  /-- A parameter without a default. -/
  | parameter : Plays design (.parameter none) (.parameter none)
  /-- A parameter with a default, which is a literal of the constant. -/
  | default {value : Constant} {id : NodeId} (h : design.Holds value id) :
      Plays design (.parameter (some value)) (.parameter (some id))
  | expression {op : Operator} {lhs rhs : Operand} {left right : NodeId}
      (hl : design.Stands lhs left) (hr : design.Stands rhs right) :
      Plays design (.expression op lhs rhs) (.expression op left right)

/-- The node in the place has the name and the role of the declaration. -/
def Embodies (design : Design) (decl : NodeDecl) (id : NodeId) : Prop :=
  ∃ node role, design.node? id = some node ∧ decl.effectiveName = .ok node.name ∧
    node.role? = some role ∧ design.Plays decl.form role

/-- The nodes that are no literals, in order. -/
def members (design : Design) : List NodeId := design.idsWhere (!·.isLiteral)

/-! ### Declared nodes -/

/-- A role stays what the form of a declaration asks for, since literals and declared nodes stay. -/
theorem Extends.plays {role : Role} (h : design.Extends next) (hp : design.Plays form role) :
    next.Plays form role := by
  cases hp with
  | port direction => exact .port direction
  | signal => exact .signal
  | parameter => exact .parameter
  | default hv => exact .default (h.holds hv)
  | expression hl hr => exact .expression (h.stands hl) (h.stands hr)

/-- A node stays the one of its declaration when further lines are read. -/
theorem Extends.embodies (h : design.Extends next) (he : design.Embodies decl id) :
    next.Embodies decl id := by
  obtain ⟨node, role, hn, hname, hr, hplays⟩ := he
  obtain ⟨other, ho, hdet⟩ := h id node hn
  refine ⟨other, role, ho, ?_, (Node.congr_detached Node.role?_detached hdet).trans hr,
    h.plays hplays⟩
  rw [hname, Node.congr_detached Node.name_detached hdet]

/-- The node that a declaration makes has the role that its form asks for. -/
theorem Makes.plays (h : design.Makes decl name form next node) (hc : design.Consistent) :
    ∃ role, node.role? = some role ∧ next.Plays form role := by
  cases h with
  | @port type direction => exact ⟨_, rfl, .port direction⟩
  | signal => exact ⟨_, rfl, .signal⟩
  | parameter => exact ⟨_, rfl, .parameter⟩
  -- What the node refers to has been supplied or resolved just before.
  | default _ hs => exact ⟨_, rfl, .default (hs.holds hc.notes)⟩
  | expression hl hr =>
    have hleft := hr.addsLiterals.toExtends.stands (hl.stands hc)
    exact ⟨_, rfl, .expression hleft (hr.stands (hc.addsLiterals hl.addsLiterals))⟩

/-- New literals are no members, and so the list of the members is not changed by them at all. -/
theorem AddsLiterals.members (h : design.AddsLiterals next) : next.members = design.members := by
  refine idsWhere_ext (design.idsWhere_pairwise _) fun id => ?_
  rw [Design.members, mem_idsWhere]
  constructor
  · rintro ⟨node, hn, hl⟩
    exact ⟨node, h.nodes hn, hl⟩
  · rintro ⟨node, hn, hl⟩
    exact ⟨node, h.fresh hn (by simpa using hl), hl⟩

/-- A declaration adds its node behind the others, and this node is the one that the declaration
    says. -/
theorem DeclaresNode.members (h : design.DeclaresNode decl next) (hc : design.Consistent) :
    ∃ id, next.members = design.members ++ [id] ∧ next.Embodies decl id := by
  obtain @⟨name, mid, node, hname, -, hmakes⟩ := h
  obtain ⟨role, hr, hplays⟩ := hmakes.plays hc
  refine ⟨mid.nodeCount, ?_, ?_⟩
  · rw [Design.members, idsWhere_push (nodes_insert ..), hmakes.isLiteral_eq, ← Design.members,
      hmakes.addsLiterals.members]
    rfl
  · refine ⟨node, role, by rw [node?_insert, if_pos rfl], ?_, hr,
      (Extends.insert mid .declared node).plays hplays⟩
    rw [hname, hmakes.name_eq]

/-- The members behind some declarations are the nodes of these, one by one and in order. The
    literals that are made in between are no members. -/
theorem members_of_nodes {start : Design} {nodes : List NodeDecl}
    (h : Chain DeclaresNode start nodes next) (hstart : start.Consistent)
    (hempty : start.nodes = #[]) : List.Forall₂ next.Embodies nodes next.members := by
  induction h with
  | nil =>
    have hnone : start.members = [] := by
      simp [members, idsWhere, placesWhere, places, hempty]
    rw [hnone]
    exact .nil
  | concat hchain hx ih =>
    obtain ⟨id, hmembers, hembodies⟩ := hx.members (hchain.keep DeclaresNode.consistent hstart)
    rw [hmembers]
    exact List.rel_append (ih.imp fun _ _ => hx.toExtends.embodies) (.cons hembodies .nil)

/-- A connection may need a new literal, and changes no other node but in its edges. -/
theorem Connects.members {connection : Connection} (h : design.Connects connection next) :
    next.members = design.members := by
  obtain @⟨destination, source, mid, driver, driven, -, hs, -, -, -, -⟩ := h
  have hext := Extends.withDriver mid destination source driver driven
  rw [Design.members, hext.idsWhere_eq (nodeCount_withDriver ..) (by simp), ← Design.members,
    hs.addsLiterals.members]

/-- Connections leave the members as they are. -/
theorem members_of_connects {start : Design} {connections : List Connection}
    (h : Chain Connects start connections next) : next.members = start.members :=
  h.eq_start Connects.members

/-! ### Literals of a single use -/

/-- What stands for a literal that is not shared is a constant that is not. A name cannot stand for
    it, since no literal has a chosen name. -/
theorem Stands.isFresh (h : design.Stands operand id) (hown : id ∈ design.idsWhere (·.isFresh)) :
    operand.isFresh = true := by
  obtain ⟨node, hn, hfresh⟩ := mem_idsWhere.mp hown
  cases operand with
  | node =>
    obtain ⟨other, ho, hl, -⟩ := h
    obtain rfl := Option.some.inj (hn.symm.trans ho)
    exact absurd (hfresh.symm.trans (isFresh_of_isLiteral hl)) (by simp)
  | constant value =>
    obtain ⟨other, ho, hv⟩ := h
    obtain rfl := Option.some.inj (hn.symm.trans ho)
    rwa [Node.isFresh, hv, Option.any_some] at hfresh

namespace Accounts

/-- The literals of a truth value are what its uses stand for. -/
theorem holds_bool_iff (h : design.Accounts uses) {value : Bool} :
    design.Holds (.bool value) id ↔ (Operand.constant (.bool value), id) ∈ uses :=
  ⟨fun hv => (h.noted value id).mp (h.only value id hv), fun hmem => h.stands _ hmem⟩

/-- No two uses have such a literal. The list of the literals that are not shared is strictly
    increasing on the side of the uses too. -/
theorem used_once (h : design.Accounts uses) (hown : id ∈ design.idsWhere (·.isFresh)) :
    (uses.map (·.2)).Pairwise fun a b => ¬ (a = id ∧ b = id) := by
  have hsorted : (ownLiterals uses).Pairwise (· < ·) := by
    rw [h.own]
    exact design.idsWhere_pairwise _
  rw [ownLiterals, List.pairwise_map, List.pairwise_filter] at hsorted
  rw [List.pairwise_map]
  refine hsorted.imp_of_mem ?_
  rintro ⟨first, _⟩ ⟨second, _⟩ hfirst hsecond hlt ⟨rfl, rfl⟩
  exact absurd (hlt ((h.stands _ hfirst).isFresh hown) ((h.stands _ hsecond).isFresh hown))
    (Nat.lt_irrefl _)

/-- It drives at most one node, and none if it is used in a declaration. Each of its edges would be
    one more use, and it has one. -/
theorem sinks (h : design.Accounts (uses ++ made)) (hw : design.Wired)
    (hedges : ∀ place edge, design.edge? place = some edge →
      (made.map (·.2))[place]? = edge.source)
    (hown : id ∈ design.idsWhere (·.isFresh)) :
    (design.sinks id).length ≤ 1 ∧ (id ∈ uses.map (·.2) → design.sinks id = []) := by
  have honce := h.used_once hown
  rw [List.map_append, List.pairwise_append] at honce
  obtain ⟨-, hmade, hapart⟩ := honce
  rw [hw.sinks_eq_edges]
  have hfrom : ∀ edge ∈ design.edges.filter (·.source = some id),
      (made.map (·.2))[edge.id]? = some id := by
    intro edge hmem
    obtain ⟨hedge, hsource⟩ := List.mem_filter.mp hmem
    rw [hedges _ _ (hw.indexed.mem_edges_iff.mp hedge), of_decide_eq_true hsource]
  have hsorted := hw.indexed.edges_pairwise.filter (·.source = some id)
  generalize design.edges.filter (·.source = some id) = edges at hfrom hsorted
  constructor
  · refine Nat.le_trans (List.length_filterMap_le ..) ?_
    match edges with
    | [] | [_] => simp
    | first :: second :: _ =>
      -- Two edges would be two uses.
      have hlt : first.id < second.id := by
        simpa using (List.pairwise_cons.mp hsorted).1 second (by simp)
      obtain ⟨hi, hfirst⟩ := List.getElem?_eq_some_iff.mp (hfrom first (by simp))
      obtain ⟨hj, hsecond⟩ := List.getElem?_eq_some_iff.mp (hfrom second (by simp))
      exact absurd ⟨hfirst, hsecond⟩ (List.pairwise_iff_getElem.mp hmade _ _ hi hj hlt)
  · intro hused
    match edges with
    | [] => rfl
    | first :: _ =>
      have hmem := List.mem_of_getElem? (hfrom first (by simp))
      exact absurd ⟨rfl, rfl⟩ (hapart id hused id hmem)

end Accounts

/-- One by one, operands and what they are used as. -/
theorem forall₂_stands (h : ∀ use ∈ uses, design.Stands use.1 use.2) :
    List.Forall₂ design.Stands (uses.map (·.1)) (uses.map (·.2)) := by
  rw [List.forall₂_map_left_iff, List.forall₂_map_right_iff, List.forall₂_same]
  exact h

end Design

/-! ### Built netlists -/

namespace Netlist

open Design

variable {netlist : Netlist} {policy : Policy} {design : Design}

/-- The nodes of the design are the declarations of the netlist and the literals of its constants,
    and no others. The list `sources` has the node that the source of each connection stands for,
    whether or not the connection is replaced. -/
structure Populates (netlist : Netlist) (design : Design) (sources : List NodeId) : Prop where
  /-- The nodes that are no literals are the declarations, in order. -/
  members : List.Forall₂ design.Embodies netlist.nodes design.members
  /-- A name stands for one of them only. -/
  named : ∀ name id other, design.Named name id → design.Named name other → id = other
  /-- The nodes refer to what the operands and defaults of the declarations stand for, in order. -/
  declarations :
    List.Forall₂ design.Stands (netlist.nodes.flatMap (·.form.uses)) design.references
  /-- The sources of the connections stand for the nodes in the list, in order. -/
  connections : List.Forall₂ design.Stands (netlist.connections.map (·.source)) sources
  /-- An edge comes from the source of the connection in its place. -/
  edges : ∀ place edge, design.edge? place = some edge → sources[place]? = edge.source
  /-- The literals of integers and texts are what the uses of these stand for, each use for the next
      one of them. -/
  own : ownLiterals (netlist.uses.zip (design.references ++ sources)) =
    design.idsWhere (·.isFresh)
  /-- There is a literal of a truth value if there is a use. -/
  shared : ∀ value,
    (∃ id, design.Holds (.bool value) id) ↔ .constant (.bool value) ∈ netlist.uses
  /-- There is no more than one. -/
  unique : ∀ value id other,
    design.Holds (.bool value) id → design.Holds (.bool value) other → id = other
  /-- A literal of an integer or a text drives one node at most, and none if a declaration uses
      it. -/
  sinks : ∀ id ∈ design.idsWhere (·.isFresh),
    (design.sinks id).length ≤ 1 ∧ (id ∈ design.references → design.sinks id = [])

/-- The uses in the declarations, and behind them those in the connections, account for all literals
    of a built design. -/
theorem Builds.accounts (h : netlist.Builds policy design) :
    ∃ early late, design.Accounts (early ++ late) ∧
      early.map (·.1) = netlist.nodes.flatMap (·.form.uses) ∧
      early.map (·.2) = design.references ∧
      late.map (·.1) = netlist.connections.map (·.source) ∧
      ∀ place edge, design.edge? place = some edge → (late.map (·.2))[place]? = edge.source := by
  obtain @⟨typed, populated, htypes, hnodes, hconnections⟩ := h
  have htyped := htypes.keep DefinesType.consistent (netlist.blank_consistent policy)
  have hpopulated := populated_of_chains htypes hnodes
  -- There is no node before the first declaration of one.
  obtain ⟨table, rfl⟩ := typed_eq htypes
  obtain ⟨early, hearly, hforms, hreferences⟩ :=
    accounts_of_nodes hnodes htyped (.empty rfl fun value => by cases value <;> rfl) rfl
  obtain ⟨late, hlate, hsources, hsame, hedges⟩ :=
    accounts_of_connects hconnections hpopulated.consistent hearly hpopulated.edgeTable_eq
  exact ⟨early, late, hlate, hforms, hreferences.trans hsame.symm, hsources, hedges⟩

/-- The nodes that are no literals are the declarations, one for one and in order. Connections only
    move edges. -/
theorem Builds.members (h : netlist.Builds policy design) :
    List.Forall₂ design.Embodies netlist.nodes design.members := by
  obtain @⟨typed, populated, htypes, hnodes, hconnections⟩ := h
  have htyped := htypes.keep DefinesType.consistent (netlist.blank_consistent policy)
  obtain ⟨table, rfl⟩ := typed_eq htypes
  rw [members_of_connects hconnections]
  exact (members_of_nodes hnodes htyped rfl).imp fun _ _ =>
    (extends_of_connects hconnections).embodies

/-- A built design has one node for each declaration and the literals of the constants. All of it is
    read off the uses of operands, which are the same in the netlist and in the design. -/
theorem populates_of_toDesign (h : netlist.toDesign policy = .ok design) :
    ∃ sources, netlist.Populates design sources := by
  have hb := builds_of_toDesign h
  obtain ⟨early, late, haccounts, hforms, hreferences, hsources, hedges⟩ := hb.accounts
  -- The uses in order are those of the declarations and then those of the connections, on both
  -- sides.
  have hfirst : (early ++ late).map (·.1) = netlist.uses := by
    rw [List.map_append, hforms, hsources, uses]
  have hsecond : (early ++ late).map (·.2) = design.references ++ late.map (·.2) := by
    rw [List.map_append, hreferences]
  refine ⟨late.map (·.2), hb.members, fun _ _ _ => hb.consistent.catalogued.unique, ?declarations,
    ?connections, hedges, ?own, fun value => ?shared, fun value id other hv hv' => ?unique,
    fun id hown => ?sinks⟩
  case declarations =>
    rw [← hforms, ← hreferences]
    exact forall₂_stands fun use hmem => haccounts.stands use (List.mem_append_left late hmem)
  case connections =>
    rw [← hsources]
    exact forall₂_stands fun use hmem => haccounts.stands use (List.mem_append_right early hmem)
  case own =>
    rw [← hfirst, ← hsecond, ← List.zip_of_prod rfl rfl]
    exact haccounts.own
  case shared =>
    simp only [haccounts.holds_bool_iff, ← hfirst, List.mem_map]
    constructor
    · rintro ⟨id, hmem⟩
      exact ⟨_, hmem, rfl⟩
    · rintro ⟨⟨_, id⟩, hmem, rfl⟩
      exact ⟨id, hmem⟩
  case unique =>
    exact Option.some.inj ((haccounts.only value id hv).symm.trans (haccounts.only value other hv'))
  case sinks =>
    rw [← hreferences]
    exact haccounts.sinks hb.consistent.wired hedges hown

/-- The constant `3` is used four times and has four literals, one of which has lost its only use to
    a later connection. The constant `true` is used twice and has one. -/
theorem populates_of_defaults :
    let netlist : Netlist :=
      { nodes := [⟨some "W", .parameter (some (.int 3)), some "integer", 1⟩,
          ⟨some "V", .parameter (some (.int 3)), some "integer", 2⟩,
          ⟨some "F", .parameter (some (.bool true)), some "boolean", 3⟩,
          ⟨some "e", .expression .add (.node "W") (.constant (.int 3)), none, 4⟩],
        connections := [⟨"W", .constant (.int 3), 5⟩, ⟨"W", .node "V", 6⟩,
          ⟨"F", .constant (.bool true), 7⟩] }
    ∃ design sources, netlist.toDesign .lenient = .ok design ∧ netlist.Populates design sources ∧
      design.members = [1, 3, 5, 7] ∧ design.references = [0, 2, 4, 1, 6] ∧
      design.idsWhere (·.isFresh) = [0, 2, 6, 8] ∧ design.sinks 4 = [5] ∧ design.sinks 8 = [] := by
  intro netlist
  have hrun : (netlist.toDesign .lenient).toOption.map (fun design =>
      (design.members, design.references, design.idsWhere (·.isFresh), design.sinks 4,
        design.sinks 8)) =
      some ([1, 3, 5, 7], [0, 2, 4, 1, 6], [0, 2, 6, 8], [5], []) := by decide +kernel
  cases h : netlist.toDesign .lenient with
  | error error =>
    rw [h] at hrun
    exact absurd hrun (by simp [Except.toOption])
  | ok design =>
    rw [h] at hrun
    obtain ⟨sources, hpopulates⟩ := populates_of_toDesign h
    obtain ⟨hmembers, hreferences, hfresh, htrue, hlost⟩ : _ ∧ _ ∧ _ ∧ _ ∧ _ := by
      simpa only [Except.toOption, Option.map_some, Option.some_inj, Prod.mk.injEq] using hrun
    exact ⟨design, sources, rfl, hpopulates, hmembers, hreferences, hfresh, htrue, hlost⟩

end Netlist

end Schematic
