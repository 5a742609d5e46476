import Schematic.Proofs.Connections
import Schematic.Proofs.NodeLists
import Schematic.Proofs.Operands

namespace Schematic

open Netlist

/-!
# Uses of nodes

The operands in the lines of a netlist, in the order in which they are resolved, and the nodes that
they stand for.

* `Netlist.uses` — the operands: defaults, operands of expressions, and sources of connections;
* `Design.references` — what the nodes of a design refer to, in their order;
* `Design.Accounts` — some uses account for all literals: those of integers and texts are there once
  for each use, and those of truth values once for all. Each operand that is resolved is one more
  use (`Accounts.resolves`), and nothing else touches this;
* `accounts_of_nodes`, `accounts_of_connects` — the uses that the lines of a netlist add.

The invariant counts in two ways at once. A constant that is not shared gets a literal for every
use, so that the list of such uses and the list of such literals are the same list of places; a
truth value has one literal for all its uses, so that being used and being noted are the same. Both
are stated for a list of uses that grows as operands are resolved, and each of the other steps
leaves literals and notes alone. What nodes refer to, and where edges come from, is read off the
same list.
-/

/-- Whether all uses of the constant share one literal. -/
def Constant.isShared (value : Constant) : Bool := value.storage = .bool

/-- Whether the node is a literal that a single use of a constant has got for itself. -/
def Node.isFresh (node : Node) : Bool := node.value?.any (!·.isShared)

namespace Netlist

/-- Whether the operand is a constant that gets a literal for itself. -/
def Operand.isFresh : Operand → Bool
  | .constant value => !value.isShared
  | .node _ => false

/-- The operands in a declaration of this form, in the order in which they are resolved. The default
    of a parameter is one of them. -/
def NodeForm.uses : NodeForm → List Operand
  | .port _ | .signal => []
  | .parameter default => (default.map .constant).toList
  | .expression _ lhs rhs => [lhs, rhs]

/-- The operands in all lines: those in the declarations, and then the sources of the
    connections. -/
def uses (netlist : Netlist) : List Operand :=
  netlist.nodes.flatMap (·.form.uses) ++ netlist.connections.map (·.source)

end Netlist

namespace Design

variable {design next : Design} {id : NodeId} {node : Node} {value : Constant} {operand : Operand}
  {uses : List (Operand × NodeId)}

/-- What the nodes refer to, in their order. -/
def references (design : Design) : List NodeId := design.nodes.toList.flatMap Node.references

/-! ### References of all nodes -/

/-- A new node adds what it refers to, behind the references of the nodes before it. -/
theorem references_push (hn : next.nodes = design.nodes.push node) :
    next.references = design.references ++ node.references := by
  simp [references, hn]

/-- What nodes refer to depends on the nodes alone. -/
theorem references_congr (hn : next.nodes = design.nodes) :
    next.references = design.references := by
  rw [references, hn, ← references]

/-- A literal refers to no other node. -/
@[simp] theorem references_literal (value : Constant) : value.literal.references = [] := by
  cases value <;> rfl

/-- A new node is appended to the nodes, whichever registry its name goes to. -/
theorem nodes_insert (design : Design) (naming : Naming) (node : Node) :
    (design.insert naming node).nodes = design.nodes.push node := by
  cases naming <;> rfl

/-- Where no node is new, the references are the same, since edges are no references. A reference is
    a default or an operand, and belongs to the role of a node. -/
theorem Extends.references_eq (h : design.Extends next) (hc : next.nodeCount = design.nodeCount) :
    next.references = design.references := by
  -- Node by node, the two designs agree without their edges, and references are not about these.
  have hnodes : next.nodes.toList.map Node.detached = design.nodes.toList.map Node.detached := by
    refine List.ext_getElem? fun id => ?_
    rw [List.getElem?_map, List.getElem?_map, Array.getElem?_toList, Array.getElem?_toList,
      ← node?, ← node?]
    cases hn : next.node? id with
    | none => rw [node?_eq_none_of_nodeCount_eq hc.symm hn]
    | some node =>
      obtain ⟨old, hold, hdet⟩ := h.detached_of_nodeCount_eq hc hn
      rw [hold, Option.map_some, Option.map_some, hdet]
  have hreferences (design : Design) :
      design.references = (design.nodes.toList.map Node.detached).flatMap Node.references := by
    rw [references, List.flatMap_map]
    simp only [Node.references_detached]
  rw [hreferences next, hnodes, ← hreferences]

/-- Literals refer to nothing. -/
theorem keptByLiterals_references (references : List NodeId) :
    KeptByLiterals fun design => design.references = references where
  literal value h := by
    rw [references_push (nodes_insert ..), references_literal, List.append_nil, h]
  share _ _ h := by rw [references_congr (nodes_share ..), h]

/-! ### Accounts -/

/-- The literals that uses have got for themselves. -/
def ownLiterals (uses : List (Operand × NodeId)) : List NodeId :=
  (uses.filter (·.1.isFresh)).map (·.2)

/-- The uses account for all literals of the design. -/
structure Accounts (design : Design) (uses : List (Operand × NodeId)) : Prop where
  /-- An operand is used as what it stands for. -/
  stands : ∀ use ∈ uses, design.Stands use.1 use.2
  /-- The literals that are not shared are those of the uses, one by one. -/
  own : ownLiterals uses = design.idsWhere (·.isFresh)
  /-- The literal that is noted for a truth value is the one of its uses. -/
  noted : ∀ value id,
    design.shared? value = some id ↔ (Operand.constant (.bool value), id) ∈ uses
  /-- There is no other literal of a truth value. -/
  only : ∀ value id, design.Holds (.bool value) id → design.shared? value = some id

/-- One more use adds its literal to those that are not shared, if it is a use of this kind. -/
theorem ownLiterals_concat (uses : List (Operand × NodeId)) (operand : Operand) (id : NodeId) :
    ownLiterals (uses ++ [(operand, id)]) =
      ownLiterals uses ++ if operand.isFresh then [id] else [] := by
  rw [ownLiterals, List.filter_append, List.map_append]
  by_cases h : operand.isFresh <;> simp [h, ownLiterals]

/-- The literal of a constant belongs to a single use unless the constant is a truth value. -/
theorem isFresh_literal (value : Constant) : value.literal.isFresh = !value.isShared := by
  rw [Node.isFresh, Constant.value?_literal, Option.any_some]

/-- What is no literal has no value. -/
theorem value?_eq_none (hl : node.isLiteral = false) : node.value? = none := by
  rwa [Node.isLiteral_eq_value?, Option.isSome_eq_false_iff, Option.isNone_iff_eq_none] at hl

/-- What is no literal is not one that a single use has got for itself. -/
theorem isFresh_of_isLiteral (hl : node.isLiteral = false) : node.isFresh = false := by
  rw [Node.isFresh, value?_eq_none hl, Option.any_none]

/-- Whose literal a node is does not depend on its edges. -/
theorem isFresh_detached (node : Node) : node.detached.isFresh = node.isFresh := by
  rw [Node.isFresh, Node.value?_detached, Node.isFresh]

/-- The literals of a constant are the old ones and the new node, if that is one. -/
theorem holds_insert {naming : Naming} :
    (design.insert naming node).Holds value id ↔
      (id = design.nodeCount ∧ node.value? = some value) ∨ design.Holds value id := by
  have hfree : design.node? design.nodeCount = none := Array.getElem?_eq_none (Nat.le_refl _)
  unfold Holds
  rw [node?_insert]
  by_cases hid : id = design.nodeCount
  · simp [hid, hfree]
  · simp [hid]

/-- Noting a literal makes no other literal. -/
theorem holds_share {noted : Bool} {place : NodeId} :
    (design.share noted place).Holds value id ↔ design.Holds value id := by
  rw [Holds, node?, nodes_share]
  rfl

/-- Where no node is new, the literals of a constant are the same. -/
theorem Extends.holds_iff (h : design.Extends next) (hc : next.nodeCount = design.nodeCount) :
    next.Holds value id ↔ design.Holds value id := by
  refine ⟨?_, h.holds⟩
  rintro ⟨node, hn, hv⟩
  obtain ⟨old, hold, hdet⟩ := h.detached_of_nodeCount_eq hc hn
  exact ⟨old, hold, (Node.congr_detached Node.value?_detached hdet).symm.trans hv⟩

namespace Accounts

/-- Without any nodes there are no literals to account for. -/
theorem empty (hn : design.nodes = #[]) (hs : ∀ value, design.shared? value = none) :
    design.Accounts [] where
  stands use h := absurd h List.not_mem_nil
  own := by simp [ownLiterals, idsWhere, placesWhere, places, hn]
  noted value id := by simp [hs]
  only value id h := by
    obtain ⟨node, hnode, -⟩ := h
    exact absurd hnode (by simp [node?, hn])

/-- Only literals have to be accounted for. Any other new node leaves the uses, the literals and the
    notes as they were. -/
theorem insert (h : design.Accounts uses) (naming : Naming) (hl : node.isLiteral = false) :
    (design.insert naming node).Accounts uses where
  stands use hmem := (Extends.insert design naming node).stands (h.stands use hmem)
  own := by
    rw [idsWhere_push (nodes_insert ..), isFresh_of_isLiteral hl, h.own]
    simp
  noted value id := by rw [shared?_insert, h.noted]
  only value id hv := by
    rw [shared?_insert]
    rcases holds_insert.mp hv with ⟨-, hvalue⟩ | hold
    · rw [Node.isLiteral_eq_value?, hvalue] at hl
      exact absurd hl (by simp)
    · exact h.only value id hold

/-- Edges have nothing to do with literals. A change of edges alone leaves what is accounted for as
    it was. -/
theorem rewires (h : design.Accounts uses) (hext : design.Extends next)
    (hc : next.nodeCount = design.nodeCount) (hrest : design.Rewires next) :
    next.Accounts uses where
  stands use hmem := hext.stands (h.stands use hmem)
  own := by rw [hext.idsWhere_eq hc isFresh_detached, h.own]
  noted value id := by rw [hrest.shared?, h.noted]
  only value id hv := by rw [hrest.shared?]; exact h.only value id ((hext.holds_iff hc).mp hv)

/-- The literal of a constant is supplied for one more use. A truth value shares its literal with
    the other uses of it, and any other constant gets a literal for this use alone. -/
theorem supplies (h : design.Accounts uses) (hs : design.Supplies value id next)
    (hstands : ∀ use ∈ uses ++ [(Operand.constant value, id)], next.Stands use.1 use.2) :
    next.Accounts (uses ++ [(.constant value, id)]) := by
  -- The three ways to come by a literal: it is noted already, it is made and noted, or it is made
  -- for this use.
  cases hs with
  | @shared value id hs =>
    refine ⟨hstands, ?_, fun other place => ?_, h.only⟩
    · simp [ownLiterals_concat, Operand.isFresh, Constant.isShared, Constant.storage, h.own]
    · -- The literal has been noted before, so that only its uses are more.
      simp only [List.mem_append, List.mem_singleton, ← h.noted, Prod.mk.injEq,
        Operand.constant.injEq, Constant.bool.injEq, iff_self_or]
      rintro ⟨rfl, rfl⟩
      exact hs
  | @noted value hs =>
    refine ⟨hstands, ?_, fun other place => ?_, fun other place hv => ?_⟩
    · rw [ownLiterals_concat, h.own, idsWhere_congr (nodes_share ..),
        idsWhere_push (nodes_insert ..), isFresh_literal]
      rfl
    · rw [shared?_share, shared?_insert]
      simp only [List.mem_append, List.mem_singleton, ← h.noted, Prod.mk.injEq,
        Operand.constant.injEq, Constant.bool.injEq]
      by_cases hother : other = value
      · simp [hother, hs, eq_comm]
      · simp [hother]
    · rw [shared?_share, shared?_insert]
      rcases holds_insert.mp (holds_share.mp hv) with ⟨rfl, hvalue⟩ | hold
      · obtain rfl : value = other := by simpa using hvalue
        rw [if_pos rfl]
      · have hnoted := h.only other place hold
        rw [if_neg ?_, hnoted]
        rintro rfl
        exact absurd (hs.symm.trans hnoted) (by simp)
  | @made value hs =>
    have hfresh : value.isShared = false := decide_eq_false hs
    refine ⟨hstands, ?_, fun other place => ?_, fun other place hv => ?_⟩
    · rw [ownLiterals_concat, h.own, idsWhere_push (nodes_insert ..), isFresh_literal]
      rfl
    · have hne : Operand.constant (.bool other) ≠ .constant value := by
        rintro ⟨⟩
        exact hs rfl
      simp [shared?_insert, ← h.noted, hne]
    · rw [shared?_insert]
      rcases holds_insert.mp hv with ⟨-, hvalue⟩ | hold
      · obtain rfl : value = .bool other := by simpa using hvalue
        exact absurd rfl hs
      · exact h.only other place hold

/-- An operand that is resolved is one more use: of a node that is there by its name, or of the
    literal of a constant. -/
theorem resolves (h : design.Accounts uses) (hc : design.Consistent)
    (hr : design.Resolves operand id next) : next.Accounts (uses ++ [(operand, id)]) := by
  have hstands : ∀ use ∈ uses ++ [(operand, id)], next.Stands use.1 use.2 := by
    intro use hmem
    rcases List.mem_append.mp hmem with hold | hnew
    · exact hr.addsLiterals.toExtends.stands (h.stands use hold)
    · obtain rfl := List.mem_singleton.mp hnew
      exact hr.stands hc
  cases hr with
  | node =>
    refine ⟨hstands, ?_, fun value place => ?_, h.only⟩
    · simp [ownLiterals_concat, Operand.isFresh, h.own]
    · simp [h.noted]
  | constant hs => exact h.supplies hs hstands

end Accounts

/-! ### The uses in the lines of a netlist -/

/-- The new node refers to what the operands of its declaration stand for, the left one first. A
    port and a signal have none. -/
theorem Makes.accounts {decl : NodeDecl} {name : String} {form : NodeForm}
    (h : design.Makes decl name form next node) (ha : design.Accounts uses)
    (hc : design.Consistent) :
    ∃ made, next.Accounts (uses ++ made) ∧ made.map (·.1) = form.uses ∧
      made.map (·.2) = node.references := by
  cases h with
  | port | signal | parameter => exact ⟨[], by rwa [List.append_nil], rfl, rfl⟩
  | default _ hs => exact ⟨_, ha.resolves hc (.constant hs), rfl, rfl⟩
  | @expression op lhs rhs left right mid _ _ _ hl hr =>
    have hleft := ha.resolves hc hl
    have hright := hleft.resolves (hc.addsLiterals hl.addsLiterals) hr
    rw [List.append_assoc] at hright
    exact ⟨[(lhs, left), (rhs, right)], hright, rfl, rfl⟩

/-- A declaration adds the uses of its operands and no others, and its node refers to what these
    stand for. -/
theorem DeclaresNode.accounts {decl : NodeDecl} (h : design.DeclaresNode decl next)
    (ha : design.Accounts uses) (hc : design.Consistent) :
    ∃ made, next.Accounts (uses ++ made) ∧ made.map (·.1) = decl.form.uses ∧
      next.references = design.references ++ made.map (·.2) := by
  obtain ⟨-, -, hmakes⟩ := h
  obtain ⟨made, hmade, hfirst, hsecond⟩ := hmakes.accounts ha hc
  refine ⟨made, hmade.insert .declared hmakes.isLiteral_eq, hfirst, ?_⟩
  rw [references_push (nodes_insert ..), (keptByLiterals_references _).makes hmakes rfl, hsecond]

/-- The uses in declarations are what the nodes refer to, declaration by declaration in their order,
    and within an expression from left to right. -/
theorem accounts_of_nodes {start : Design} {nodes : List NodeDecl}
    (h : Chain DeclaresNode start nodes next) (hstart : start.Consistent)
    (ha : start.Accounts []) (hempty : start.nodes = #[]) :
    ∃ uses, next.Accounts uses ∧ uses.map (·.1) = nodes.flatMap (·.form.uses) ∧
      uses.map (·.2) = next.references := by
  induction h with
  | nil => exact ⟨[], ha, rfl, by simp [references, hempty]⟩
  | concat hchain hx ih =>
    obtain ⟨uses, huses, hfirst, hsecond⟩ := ih
    obtain ⟨made, hmade, hforms, hreferences⟩ :=
      hx.accounts huses (hchain.keep DeclaresNode.consistent hstart)
    refine ⟨uses ++ made, hmade, ?_, ?_⟩
    · simp [hfirst, hforms]
    · rw [List.map_append, hsecond, hreferences]

/-- Of the edges of a design in which a node gets a driver, all but the last are old. -/
theorem Wired.edge?_withDriver_cases {destination source : NodeId} {driver driven : Node}
    {place : EdgeId} {edge : Edge} (hw : design.Wired)
    (hdriven : design.node? destination = some driven)
    (h : (design.withDriver destination source driver driven).edge? place = some edge) :
    design.edge? place = some edge ∨
      place = design.edgeTable.size ∧ edge.source = some source := by
  by_cases hlt : place < design.edgeTable.size
  · rw [hw.edge?_withDriver hdriven hlt] at h
    split at h
    · exact absurd h (by simp)
    · exact .inl h
  · have hle := lt_size_of_edge? h
    rw [size_edgeTable_withDriver] at hle
    obtain rfl : place = design.edgeTable.size :=
      Nat.le_antisymm (Nat.le_of_lt_succ hle) (Nat.le_of_not_lt hlt)
    rw [Design.withDriver, edge?_link, size_edgeTable_withoutDriver, if_pos rfl] at h
    obtain rfl := Option.some.inj h
    exact .inr ⟨rfl, rfl⟩

/-- The uses in connections are where the edges come from. The k-th connection makes the edge in
    place k, so that its source is the k-th of these uses. -/
theorem accounts_of_connects {start : Design} {connections : List Connection}
    (h : Chain Connects start connections next) (hstart : start.Consistent)
    (ha : start.Accounts uses) (hempty : start.edgeTable = #[]) :
    ∃ made, next.Accounts (uses ++ made) ∧ made.map (·.1) = connections.map (·.source) ∧
      next.references = start.references ∧
      ∀ place edge, next.edge? place = some edge → (made.map (·.2))[place]? = edge.source := by
  induction h with
  | nil =>
    refine ⟨[], by rwa [List.append_nil], rfl, rfl, fun place edge h => ?_⟩
    exact absurd h (by simp [edge?, hempty])
  | @concat connections connection mid next hchain hx ih =>
    obtain ⟨made, hmade, hfirst, hreferences, hedges⟩ := ih
    have hmid := consistent_of_connects hchain hstart
    -- So far there are as many uses as places for edges, so that the new edge and its source match.
    have hsize : made.length = mid.edgeTable.size := by
      rw [(realizes_surviving hchain hstart hempty).1, ← List.length_map, hfirst,
        List.length_map]
    obtain @⟨destination, source, last, driver, driven, -, hs, -, hdriven, -, -⟩ := hx
    have hlast := hmid.addsLiterals hs.addsLiterals
    have hext := Extends.withDriver last destination source driver driven
    have hcount := nodeCount_withDriver last destination source driver driven
    have hused := (hmade.resolves hmid hs).rewires hext hcount (.withDriver ..)
    refine ⟨made ++ [(connection.source, source)], ?_, ?_, ?_, fun place edge h => ?_⟩
    · rwa [← List.append_assoc]
    · simp [hfirst]
    · rw [hext.references_eq hcount, (keptByLiterals_references _).resolves hs rfl,
        hreferences]
    · -- The new edge stands behind all others, as its source does.
      rw [List.map_append]
      rcases hlast.wired.edge?_withDriver_cases hdriven h with hold | ⟨rfl, hsource⟩
      · rw [edge?_congr hs.addsLiterals.edgeTable] at hold
        rw [List.getElem?_append_left (by simpa [hsize] using lt_size_of_edge? hold),
          hedges place edge hold]
      · rw [hs.addsLiterals.edgeTable, ← hsize, hsource]
        simp

end Design

end Schematic
