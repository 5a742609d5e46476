import Schematic.Proofs.Acceptance
import Schematic.Proofs.Operands
import Schematic.Proofs.Population

namespace Schematic

open Netlist

/-!
# The types of nodes

A node of a built design has a type of the design. A declaration names the type, a literal has the
built-in type of its value, and an expression has the type that its left operands lead to.

* `TypeTable.Types` — a node has a type of the table, and a literal the one of its value;
* `Design.Typed` — all nodes do. The building of a netlist keeps this up
  (`Typed.keptByBuilding`);
* `Design.Assigns` — the node of a declaration has the type that this names;
* `Design.Befits` — the node in a place has the name and the type that a declaration asks for;
* `Netlist.typing_of_toDesign` — the types of all nodes of a built design.

That every node has a type of the design is kept up by each line, since a type is looked up before a
node is made with it and no later line changes the types. The type of a declared node is the one
that its declaration names; to find the node of a declaration, its name is used, which no other
declared node has. The type of an expression comes from the left operand, and from there on along
left operands to a node that is no expression. There is such a node since operands stand before the
expression.
-/

/-- The built-in type of the literals of the constant. -/
def Constant.builtin : Constant → Builtin
  | .bool _ => .boolean
  | .int _ => .integer
  | .string _ => .string

/-- The literal of a constant has the built-in type of the constant's value. -/
@[simp] theorem Constant.type_literal (value : Constant) :
    value.literal.type = value.builtin.type := by
  cases value <;> rfl

/-- A node with a role is what is made anew under its name, apart from its edges. -/
theorem Node.detached_eq_ofRole {node : Node} {role : Role} (h : node.role? = some role) :
    node.detached = .ofRole node.name node.type role := by
  obtain ⟨_, _, _ | _⟩ := node
  · exact absurd h (by simp [role?])
  · obtain rfl := Option.some.inj h
    rfl

/-- The edit that makes the node of a declaration without a name, for the type that is named. -/
def Netlist.NodeForm.unnamed? (type : DataType) : NodeForm → Option (Edit NodeId)
  | .port direction => some (Edit.portOfType type direction)
  | .signal => some (Edit.signalOfType type)
  | .parameter _ | .expression .. => none

/-- The node has the type of its name in the table, and if it is a literal, the built-in type of
    its value. -/
structure TypeTable.Types (table : TypeTable) (node : Node) : Prop where
  /-- The type is found under its own name. -/
  known : table.find? node.type.name = some node.type
  /-- The type of a literal depends on its value alone. -/
  literal : ∀ value, node.value? = some value → node.type = value.builtin.type

namespace TypeTable

variable {table : TypeTable} {node other : Node} {name label : String} {type : DataType}
  {role : Role}

/-- The type of a literal is built in, so that every table has it. -/
theorem types_literal (table : TypeTable) (value : Constant) : table.Types value.literal where
  known := by rw [value.type_literal, find?_builtin]
  literal other h := by
    rw [value.value?_literal] at h
    obtain rfl := Option.some.inj h
    exact value.type_literal

/-- A node with a role has a type of the table if its type has been looked up there. -/
theorem types_ofRole (h : table.find? name = some type) :
    table.Types (.ofRole label type role) where
  known := by
    show table.find? type.name = some type
    rw [name_of_find? h, h]
  literal value hv := absurd hv (by simp [Node.ofRole, Node.value?])

/-- Edges have no types. Two nodes that differ in their edges alone have the same type and the same
    value. -/
theorem Types.of_detached (h : table.Types node) (hdet : other.detached = node.detached) :
    table.Types other where
  known := by
    rw [Node.congr_detached Node.type_detached hdet]
    exact h.known
  literal value hv := by
    rw [Node.congr_detached Node.value?_detached hdet] at hv
    rw [Node.congr_detached Node.type_detached hdet]
    exact h.literal value hv

end TypeTable

namespace Design

variable {design next : Design} {id source : NodeId} {node : Node} {name : String}
  {value : Constant} {operand : Operand} {decl : NodeDecl} {form : NodeForm}

/-! ### Every node has a type of the design -/

/-- Every node has a type of the design, and every literal the one of its value. -/
def Typed (design : Design) : Prop :=
  ∀ id node, design.node? id = some node → design.types.Types node

/-- Where only nodes and edges change, the types are the same. -/
theorem Rewires.types (h : design.Rewires next) : next.types = design.types := by rw [h]

/-- The type that a node is declared with is a type of the design. -/
theorem Makes.types (h : design.Makes decl name form next node) (ht : next.Typed) :
    next.types.Types node := by
  have htypes := h.addsLiterals.types
  cases h with
  | port htype | signal htype | parameter htype => exact TypeTable.types_ofRole htype
  | default htype =>
    rw [← htypes] at htype
    exact TypeTable.types_ofRole htype
  | expression _ _ hleft => exact TypeTable.types_ofRole (ht _ _ hleft).known

namespace Typed

/-- A new node with a type of the design leaves all nodes with types of the design, since it neither
    adds a type nor takes one away. -/
theorem insert (h : design.Typed) (naming : Naming) (hnode : design.types.Types node) :
    (design.insert naming node).Typed := by
  have htypes : (design.insert naming node).types = design.types := by cases naming <;> rfl
  -- The node in question is the new one or an old one.
  intro id other ho
  rw [htypes]
  rw [node?_insert] at ho
  split at ho
  case isTrue =>
    obtain rfl := Option.some.inj ho
    exact hnode
  case isFalse => exact h id other ho

/-- Noting the literal of a truth value changes neither nodes nor types. -/
theorem share (h : design.Typed) (value : Bool) (id : NodeId) : (design.share value id).Typed := by
  have htypes : (design.share value id).types = design.types := by cases value <;> rfl
  intro place node hn
  rw [node?, nodes_share] at hn
  rw [htypes]
  exact h place node hn

/-- No line of a netlist gives a node a type that the design has not. -/
theorem keptByBuilding : KeptByBuilding Typed where
  literal value h := h.insert .derived (TypeTable.types_literal _ value)
  share _ _ h := h.share _ _
  declared hmakes h := h.insert .declared (hmakes.types h)
  driven {design} destination source driver driven h := by
    -- The nodes are the same apart from their edges.
    have hext := Extends.withDriver design destination source driver driven
    intro id node hn
    obtain ⟨old, hold, hdet⟩ := hext.detached_of_nodeCount_eq (nodeCount_withDriver ..) hn
    rw [(Rewires.withDriver ..).types]
    exact (h id old hold).of_detached hdet

end Typed

/-! ### Declared types -/

/-- The node of the declaration is no literal, and it has the type that the declaration names. An
    expression names none. -/
def Assigns (design : Design) (decl : NodeDecl) : Prop :=
  ∃ id node, design.node? id = some node ∧ node.isLiteral = false ∧
    decl.effectiveName = .ok node.name ∧
      (decl.form.isTyped = true → design.types.find? decl.effectiveType = some node.type)

/-- A declared node keeps its type as long as nodes stay and types are the same. -/
theorem Extends.assigns (h : design.Extends next) (ht : next.types = design.types)
    (ha : design.Assigns decl) : next.Assigns decl := by
  obtain ⟨id, node, hn, hl, hname, htype⟩ := ha
  obtain ⟨other, ho, hdet⟩ := h id node hn
  refine ⟨id, other, ho, (Node.congr_detached Node.isLiteral_detached hdet).trans hl, ?_, ?_⟩
  · rw [hname, Node.congr_detached Node.name_detached hdet]
  · rw [ht, Node.congr_detached Node.type_detached hdet]
    exact htype

/-- A node is made with the type that is named. -/
theorem Makes.find?_type_eq (h : design.Makes decl name form next node)
    (ht : form.isTyped = true) : next.types.find? decl.effectiveType = some node.type := by
  rw [h.addsLiterals.types]
  cases h with
  | port htype | signal htype | parameter htype | default htype => exact htype
  | expression => exact absurd ht (by simp [NodeForm.isTyped])

/-- The node of a declaration has the type that this names, if it names one. -/
theorem DeclaresNode.assigns (h : design.DeclaresNode decl next) : next.Assigns decl := by
  obtain @⟨name, mid, node, hname, -, hmakes⟩ := h
  refine ⟨mid.nodeCount, node, by rw [node?_insert, if_pos rfl], hmakes.isLiteral_eq, ?_, ?_⟩
  · rw [hname, hmakes.name_eq]
  · exact hmakes.find?_type_eq

/-- Every declaration has its node with the named type at the end, since later declarations leave it
    so. -/
theorem assigns_of_nodes {start : Design} {nodes : List NodeDecl}
    (h : Chain DeclaresNode start nodes next) (hmem : decl ∈ nodes) : next.Assigns decl :=
  h.holds_of_mem (fun _ _ => trivial) trivial (fun hx _ => hx.assigns)
    (fun hx => hx.toExtends.assigns hx.types) hmem

/-- Connections declare no types. -/
theorem Connects.types {connection : Connection} (h : design.Connects connection next) :
    next.types = design.types := by
  obtain ⟨-, hs⟩ := h
  rw [(Rewires.withDriver ..).types, hs.addsLiterals.types]

/-- Connections leave the types as they are, however many there are. -/
theorem types_of_connects {start : Design} {connections : List Connection}
    (h : Chain Connects start connections next) : next.types = start.types :=
  h.eq_start Connects.types

/-- The node in the place has the name and the type that the declaration asks for. Without a name in
    the declaration, it is the node that is made anew for its type alone. -/
def Befits (design : Design) (decl : NodeDecl) (id : NodeId) : Prop :=
  ∃ node, design.node? id = some node ∧ decl.effectiveName = .ok node.name ∧
    (decl.form.isTyped = true → design.types.find? decl.effectiveType = some node.type) ∧
    (decl.name = none → ∃ edit, decl.form.unnamed? node.type = some edit ∧
      ∀ session : Session, session.EndsWith edit node.detached)

/-- No other node has the name of a declaration, so that the node which embodies it is the one that
    has been given its type. -/
theorem Assigns.befits (h : design.Assigns decl) (hc : design.Catalogued)
    (he : design.Embodies decl id) : design.Befits decl id := by
  obtain ⟨node, role, hn, hname, hr, hplays⟩ := he
  obtain ⟨other, same, ho, hl, hname', htype⟩ := h
  have hsame : node.name = same.name := Except.ok.inj (hname.symm.trans hname')
  obtain rfl : id = other := hc.unique ⟨node, hn, Node.isLiteral_of_role? hr, hsame⟩
    ⟨same, ho, hl, rfl⟩
  obtain rfl : node = same := Option.some.inj (hn.symm.trans ho)
  refine ⟨node, hn, hname, htype, fun hnone => ?_⟩
  rw [NodeDecl.effectiveName, hnone] at hname
  rw [Node.detached_eq_ofRole hr]
  -- Only a port and a signal can do without a name, and then the type is all that the edit needs.
  cases hform : decl.form with
  | port direction =>
    rw [hform] at hname hplays htype
    obtain ⟨⟩ := hplays
    obtain hname : decl.effectiveType = node.name := Except.ok.inj hname
    refine ⟨_, rfl, fun session => ?_⟩
    rw [← hname, ← TypeTable.name_of_find? (htype rfl)]
    exact session.endsWith_insert _
  | signal =>
    rw [hform] at hname hplays htype
    obtain ⟨⟩ := hplays
    obtain hname : decl.effectiveType ++ "_signal" = node.name := Except.ok.inj hname
    refine ⟨_, rfl, fun session => ?_⟩
    rw [← hname, ← TypeTable.name_of_find? (htype rfl)]
    exact session.endsWith_insert _
  | parameter | expression =>
    rw [hform] at hname
    exact absurd hname (by simp)

/-! ### What nodes refer to -/

/-- A declaration makes no node refer to anything behind it: it comes about by single changes. -/
theorem DeclaresNode.founded (h : design.DeclaresNode decl next) (hc : design.Consistent)
    (hf : design.Founded) : next.Founded := by
  obtain ⟨-, -, hmakes⟩ := h
  have hinsert := Change.insert .declared (hmakes.admits hc.notes)
  exact hinsert.founded (hmakes.addsLiterals.reaches.founded hf)

/-- A connection makes no node refer to anything behind it, since an edge is no reference. -/
theorem Connects.founded {connection : Connection} (h : design.Connects connection next)
    (hc : design.Consistent) (hf : design.Founded) : next.Founded := by
  obtain ⟨-, hs, hdriver, hdriven, hl, -⟩ := h
  have hmid := hc.addsLiterals hs.addsLiterals
  exact (Reaches.withDriver hmid.wired hdriver hdriven hl).founded
    (hs.addsLiterals.reaches.founded hf)

/-- Behind declarations, what nodes refer to stands before them. -/
theorem founded_of_nodes {start : Design} {nodes : List NodeDecl}
    (h : Chain DeclaresNode start nodes next) (hc : start.Consistent) (hf : start.Founded) :
    next.Founded := by
  induction h with
  | nil => exact hf
  | concat hchain hx ih => exact hx.founded (hchain.keep DeclaresNode.consistent hc) ih

/-- Behind connections, what nodes refer to stands before them. -/
theorem founded_of_connects {start : Design} {connections : List Connection}
    (h : Chain Connects start connections next) (hc : start.Consistent) (hf : start.Founded) :
    next.Founded := by
  induction h with
  | nil => exact hf
  | concat hchain hx ih => exact hx.founded (consistent_of_connects hchain hc) ih

end Design

/-! ### Built netlists -/

namespace Netlist

open Design

variable {netlist : Netlist} {policy : Policy} {design : Design}

/-- In a built design, what a node refers to stands before it. -/
theorem Builds.founded (h : netlist.Builds policy design) : design.Founded := by
  obtain @⟨typed, populated, htypes, hnodes, hconnections⟩ := h
  have hc := htypes.keep DefinesType.consistent (netlist.blank_consistent policy)
  have hpopulated := populated_of_chains htypes hnodes
  obtain ⟨table, rfl⟩ := typed_eq htypes
  have hfounded : populated.Founded := founded_of_nodes hnodes hc
    fun id node hn => absurd hn (by simp [node?, blank, Session.start])
  exact founded_of_connects hconnections hpopulated.consistent hfounded

/-- Every node of a built design has a type of the design. -/
theorem Builds.typed (h : netlist.Builds policy design) : design.Typed :=
  h.keep Typed.keptByBuilding fun _ id node hn =>
    absurd hn (by simp [node?, blank, Session.start])

/-- The declared types of the design are those of the netlist. -/
theorem Builds.find?_type (h : netlist.Builds policy design) (name : String) :
    design.types.find? name = (DataType.builtin.find? (·.name = name)).or
      ((netlist.types.map (·.type)).find? (·.name = name)) := by
  obtain ⟨htypes, hnodes, hconnections⟩ := h
  rw [types_of_connects hconnections, (populated_keeps hnodes).2.1, TypeTable.find?_eq,
    TypeTable.declared?, types_declared htypes]

/-- The declared nodes of a built design have the names and the types that are asked for, in
    order. -/
theorem Builds.befits (h : netlist.Builds policy design) :
    List.Forall₂ (fun decl id => design.Embodies decl id ∧ design.Befits decl id)
      netlist.nodes design.members := by
  have hassigns : ∀ decl ∈ netlist.nodes, design.Assigns decl := by
    obtain ⟨htypes, hnodes, hconnections⟩ := h
    intro decl hmem
    exact (extends_of_connects hconnections).assigns (types_of_connects hconnections)
      (assigns_of_nodes hnodes hmem)
  refine ((List.forall₂_and_left _ _).mpr ⟨hassigns, h.members⟩).imp ?_
  rintro decl id ⟨hassigns, hembodies⟩
  exact ⟨hembodies, hassigns.befits h.consistent.catalogued hembodies⟩

/-- The types of the nodes of a design are those that the netlist asks for. -/
structure Typing (netlist : Netlist) (design : Design) : Prop where
  /-- The types of the design are the built-in ones and those of the netlist. -/
  types : ∀ name, design.types.find? name = (DataType.builtin.find? (·.name = name)).or
    ((netlist.types.map (·.type)).find? (·.name = name))
  /-- Every node has the type that the design has under the name of this type. -/
  known : ∀ id node, design.node? id = some node →
    design.types.find? node.type.name = some node.type
  /-- The declared nodes, in order, have the types that are named, and their names. -/
  declared : List.Forall₂ (fun decl id => design.Embodies decl id ∧ design.Befits decl id)
    netlist.nodes design.members
  /-- A literal has the built-in type of its value. -/
  literal : ∀ id node value, design.node? id = some node → node.value? = some value →
    node.type = value.builtin.type
  /-- An expression has the type of its left operand. -/
  expression : ∀ id node op lhs rhs, design.node? id = some node →
    node.role? = some (.expression op lhs rhs) →
    ∃ left, design.node? lhs = some left ∧ node.type = left.type
  /-- The left operands of a node lead to one node that is no expression, and this has the type of
      the node. -/
  leaf : ∀ id node, design.node? id = some node →
    ∃ leaf last, (∀ other, design.LeftLeaf id other ↔ other = leaf) ∧
      design.node? leaf = some last ∧ last.tag ≠ .expression ∧ node.type = last.type

/-- In a built design, every node has the type that its declaration, its value or its left operand
    tells, and this is a type of the design. -/
theorem typing_of_toDesign (h : netlist.toDesign policy = .ok design) : netlist.Typing design := by
  have hb := builds_of_toDesign h
  have hf := hb.founded
  -- Each part has its reason in the lines that have been passed or in the order of the nodes.
  constructor
  case types => exact hb.find?_type
  case known => exact fun id node hn => (hb.typed id node hn).known
  case declared => exact hb.befits
  case literal => exact fun id node value hn => (hb.typed id node hn).literal value
  case expression =>
    intro id node op lhs rhs hn hr
    obtain ⟨-, -, left, right, hleft, -, htype⟩ := hf.expression hn hr
    exact ⟨left, hleft, htype⟩
  case leaf =>
    intro id node hn
    obtain ⟨leaf, last, hleaf, hlast, htag, htype⟩ := hf.exists_leftLeaf hn
    refine ⟨leaf, last, fun other => ⟨hleaf.unique, ?_⟩, hlast, htag, htype.symm⟩
    rintro rfl
    exact hleaf

/-- The port and the signal are declared without names, and the product has the type of the port,
    which is the left operand of its left operand. -/
theorem typing_of_nested_operands :
    let netlist : Netlist :=
      { types := [⟨"byte", .vector 8, 1⟩],
        nodes := [⟨none, .port .input, some "byte", 2⟩, ⟨none, .signal, some "byte", 3⟩,
          ⟨some "sum", .expression .add (.node "byte") (.constant (.int 1)), none, 4⟩,
          ⟨some "product", .expression .mul (.node "sum") (.node "byte_signal"), none, 5⟩] }
    let byte : DataType := ⟨"byte", .vector 8⟩
    ∃ design port signal product, netlist.toDesign .lenient = .ok design ∧
      netlist.Typing design ∧
      design.node? 0 = some port ∧ port.type = byte ∧
      (∀ session : Session, session.EndsWith (Edit.portOfType port.type .input) port.detached) ∧
      design.node? 1 = some signal ∧ signal.type = byte ∧
      (∀ session : Session, session.EndsWith (Edit.signalOfType signal.type) signal.detached) ∧
      design.node? 4 = some product ∧ product.type = port.type ∧
      ∀ other, design.LeftLeaf 4 other ↔ other = 0 := by
  intro netlist byte
  have hrun : (netlist.toDesign .lenient).toOption.map (fun design =>
      (design.members, (design.node? 0).bind (·.role?), (design.node? 3).bind (·.role?),
        (design.node? 4).bind (·.role?))) =
      some ([0, 1, 3, 4], some (.port .input), some (.expression .add 0 2),
        some (.expression .mul 3 1)) := by decide +kernel
  cases h : netlist.toDesign .lenient with
  | error error =>
    rw [h] at hrun
    exact absurd hrun (by simp [Except.toOption])
  | ok design =>
    rw [h] at hrun
    obtain ⟨hmembers, hport, hsum, hproduct⟩ : _ ∧ _ ∧ _ ∧ _ := by
      simpa only [Except.toOption, Option.map_some, Option.some_inj, Prod.mk.injEq] using hrun
    obtain ⟨port, hn0, hr0⟩ := Option.bind_eq_some_iff.mp hport
    obtain ⟨sum, hn3, hr3⟩ := Option.bind_eq_some_iff.mp hsum
    obtain ⟨product, hn4, hr4⟩ := Option.bind_eq_some_iff.mp hproduct
    have htyping := typing_of_toDesign h
    have hdeclared := htyping.declared
    rw [hmembers] at hdeclared
    obtain ⟨hport, hrest⟩ := List.forall₂_cons.mp hdeclared
    obtain ⟨-, port', hn0', -, htype0, hunnamed0⟩ := hport
    obtain ⟨⟨-, signal, hn1, -, htype1, hunnamed1⟩, -⟩ := List.forall₂_cons.mp hrest
    obtain rfl : port = port' := Option.some.inj (hn0.symm.trans hn0')
    have hbyte : design.types.find? "byte" = some byte := htyping.types "byte"
    have hbyte0 : port.type = byte := Option.some.inj ((htype0 rfl).symm.trans hbyte)
    have hbyte1 : signal.type = byte := Option.some.inj ((htype1 rfl).symm.trans hbyte)
    obtain ⟨_, ⟨⟩, hsession0⟩ := hunnamed0 rfl
    obtain ⟨_, ⟨⟩, hsession1⟩ := hunnamed1 rfl
    obtain ⟨leaf, last, hother, hlast, -, hsame⟩ := htyping.leaf 4 product hn4
    obtain rfl : 0 = leaf := (hother 0).mp
      (.left hn4 hr4 (.left hn3 hr3 (.leaf hn0 (by rw [Node.tag_of_role? hr0]; decide))))
    obtain rfl : port = last := Option.some.inj (hn0.symm.trans hlast)
    exact ⟨design, port, signal, product, rfl, htyping, hn0, hbyte0, hsession0, hn1, hbyte1,
      hsession1, hn4, hsame, hother⟩

end Netlist

end Schematic
