import Mathlib.Data.List.Chain
import Schematic.Proofs.Permanence

namespace Schematic

/-!
# Operands and defaults

An expression refers to its operands, and a parameter to its default. All that a node refers to has
been there before it, so that references, unlike edges, never lead in a circle.

* `Node.references` — the nodes that a node refers to;
* `Design.Founded` — these stand before it, and the design admits the node. No single change harms
  this (`Change.founded`);
* `Founded.length_le` — a walk along references takes no more steps than there are places before its
  start;
* `Design.LeftLeaf` — the node that the left operands of an expression lead to;
* `Session.operands_of_run` — what this comes to behind every run from an empty design.

The invariant is `Design.Founded`. A new node comes behind all others, and the edit that makes it
has looked at its operands or its default before, so that these have smaller places; a copy refers
to what its template refers to, which has smaller places still. No change touches the references of
a node that is there. That walks end is then a matter of decreasing numbers, and the leaf of a node
and its type are found by induction on its place.
-/

namespace Node

variable {node other : Node}

/-- The nodes that a node refers to: the operands of an expression, the default of a parameter. -/
def references (node : Node) : List NodeId :=
  match node.role? with
  | some (.parameter default) => default.toList
  | some (.expression _ lhs rhs) => [lhs, rhs]
  | _ => []

/-- A node refers to the same nodes without its edges: an edge is no reference. -/
@[simp] theorem references_detached (node : Node) : node.detached.references = node.references := by
  rw [references, role?_detached, references]

/-- Only a literal is without a role. -/
theorem exists_role? (h : node.tag ≠ .literal) :
    ∃ role, node.role? = some role ∧ role.tag = node.tag := by
  obtain ⟨_, _, _ | ⟨role, _⟩⟩ := node
  · exact absurd rfl h
  · exact ⟨role, rfl, rfl⟩

/-- A node that counts as an expression has an operator and two operands. -/
theorem role?_of_tag (h : node.tag = .expression) :
    ∃ op lhs rhs, node.role? = some (.expression op lhs rhs) := by
  obtain ⟨role, hr, ht⟩ := exists_role? (by simp [h] : node.tag ≠ .literal)
  cases role with
  | expression op lhs rhs => exact ⟨op, lhs, rhs, hr⟩
  | _ => exact absurd (ht.trans h) (by simp [Role.tag])

/-- A node with a role counts as what the role is. -/
theorem tag_of_role? {role : Role} (h : node.role? = some role) : node.tag = role.tag := by
  obtain ⟨_, _, _ | _⟩ := node
  · exact absurd h (by simp [role?])
  · obtain rfl := Option.some.inj h
    rfl

/-- A node that is still the same is a literal if it was one. -/
theorem Remains.isLiteral (h : node.Remains other) : other.isLiteral = node.isLiteral := by
  rw [Node.isLiteral, h.tag, Node.isLiteral]

end Node

namespace Design

variable {design next : Design} {id leaf : NodeId} {node : Node}

/-- The node in one place refers to the one in another. -/
def Refers (design : Design) (id target : NodeId) : Prop :=
  ∃ node, design.node? id = some node ∧ target ∈ node.references

/-- The design admits each of its nodes, and what a node refers to stands before it. -/
def Founded (design : Design) : Prop :=
  ∀ id node, design.node? id = some node →
    design.Admits node.detached ∧ ∀ target ∈ node.references, target < id

/-- The node in the place `leaf` is where the left operands lead to from the node in the place `id`.
    Without any operands, a node is its own leaf. -/
inductive LeftLeaf (design : Design) : NodeId → NodeId → Prop
  | leaf {id : NodeId} {node : Node} (hn : design.node? id = some node)
      (ht : node.tag ≠ .expression) : LeftLeaf design id id
  | left {id lhs rhs leaf : NodeId} {node : Node} {op : Operator}
      (hn : design.node? id = some node) (hr : node.role? = some (.expression op lhs rhs))
      (h : LeftLeaf design lhs leaf) : LeftLeaf design id leaf

/-! ### Nodes that are admitted -/

/-- What a node refers to is there, and so it stands before the place that the node is about to
    get. -/
theorem Admits.lt_nodeCount (h : design.Admits node) :
    ∀ target ∈ node.references, target < design.nodeCount := by
  obtain ⟨-, hrole⟩ := h
  intro target hmem
  unfold Node.references at hmem
  -- Only parameters and expressions refer to nodes, and what they refer to has been looked up.
  split at hmem
  case h_1 default hr =>
    obtain rfl : default = some target := Option.mem_toList.mp hmem
    rw [hr] at hrole
    obtain ⟨literal, hn, -⟩ := hrole
    exact lt_nodeCount_of_node? hn
  case h_2 op lhs rhs hr =>
    rw [hr] at hrole
    obtain ⟨left, right, hl, hrt, -⟩ := hrole
    rcases List.mem_pair.mp hmem with rfl | rfl
    · exact lt_nodeCount_of_node? hl
    · exact lt_nodeCount_of_node? hrt
  case h_3 => exact absurd hmem List.not_mem_nil

/-- What a node needs stays: a default is still a literal, and the operands of an expression are
    still there, the left one with its type. -/
theorem Keeps.admits (h : design.Keeps next) (ha : design.Admits node) : next.Admits node := by
  obtain ⟨hdet, hrole⟩ := ha
  refine ⟨hdet, ?_⟩
  split at hrole
  case h_1 =>
    obtain ⟨literal, hn, hl⟩ := hrole
    obtain ⟨other, ho, hsame⟩ := h.node _ literal hn
    exact ⟨other, ho, hsame.isLiteral.trans hl⟩
  case h_2 =>
    obtain ⟨left, right, hl, hr, htype⟩ := hrole
    obtain ⟨left', hl', hsame⟩ := h.node _ left hl
    obtain ⟨right', hr', -⟩ := h.node _ right hr
    exact ⟨left', right', hl', hr', htype.trans hsame.type.symm⟩
  case h_3 => trivial

/-! ### Single changes -/

/-- Each node is an old one, except for its edges, or a new one that the design has everything
    for. -/
theorem Founded.of_keeps (hf : design.Founded) (hkeeps : design.Keeps next)
    (h : ∀ id node, next.node? id = some node →
      (∃ old, design.node? id = some old ∧ node.detached = old.detached) ∨
        design.Admits node.detached ∧ ∀ target ∈ node.references, target < id) : next.Founded := by
  intro id node hn
  rcases h id node hn with ⟨old, hold, hdet⟩ | ⟨hadmits, hlt⟩
  · obtain ⟨hadmits, hlt⟩ := hf id old hold
    rw [hdet, ← Node.references_detached, hdet, Node.references_detached]
    exact ⟨hkeeps.admits hadmits, hlt⟩
  · exact ⟨hkeeps.admits hadmits, hlt⟩

/-- No single change makes a node refer to anything behind it. Each node is an old one, which refers
    to the same as before, or a new one, whose references have been there before it. -/
theorem Change.founded (h : Change design next) (hf : design.Founded) : next.Founded := by
  refine hf.of_keeps h.keeps fun id node hn => ?_
  cases h with
  | define => exact .inl ⟨node, hn, rfl⟩
  | share =>
    rw [node?, nodes_share] at hn
    exact .inl ⟨node, hn, rfl⟩
  | @insert made naming hadmits =>
    rw [node?_insert] at hn
    split at hn
    case isTrue hid =>
      obtain rfl := Option.some.inj hn
      rw [hadmits.1, hid]
      exact .inr ⟨hadmits, hadmits.lt_nodeCount⟩
    case isFalse => exact .inl ⟨node, hn, rfl⟩
  | @copy template place hplace =>
    rw [node?_insertUnnamed] at hn
    split at hn
    case isTrue hid =>
      -- The copy refers to what its template does, and the template stands before it.
      obtain rfl := Option.some.inj hn
      obtain ⟨hadmits, hlt⟩ := hf place template hplace
      rw [Node.detached_detached, Node.references_detached, hid]
      exact .inr ⟨hadmits, fun target hmem =>
        Nat.lt_trans (hlt target hmem) (lt_nodeCount_of_node? hplace)⟩
    case isFalse => exact .inl ⟨node, hn, rfl⟩
  | @turn port place direction hport hr =>
    rw [node?_updateNode] at hn
    split at hn
    case isTrue hid =>
      -- A port refers to nothing, whichever way it is turned.
      rw [hid, hport, Option.map_some] at hn
      obtain rfl := Option.some.inj hn
      have hturned : (port.withRole (.port direction.flip)).role? = some (.port direction.flip) :=
        Node.Remains.role?_withRole hr
      exact .inr (by simp [Admits, Node.references, hturned])
    case isFalse => exact .inl ⟨node, hn, rfl⟩
  | @unlink edge place =>
    have hext := Extends.unlink design place edge
    exact .inl (hext.detached_of_nodeCount_eq (nodeCount_unlink ..) hn)
  | @link source destination driver driven =>
    have hext := Extends.link design (design.nextEdge source destination driver.name driven.name)
      source destination
    exact .inl (hext.detached_of_nodeCount_eq (nodeCount_link ..) hn)

/-- No sequence of single changes makes a node refer to anything behind it. -/
theorem Reaches.founded (h : design.Reaches next) (hf : design.Founded) : next.Founded := by
  induction h with
  | refl => exact hf
  | tail _ hchange ih => exact hchange.founded ih

/-! ### What is founded -/

namespace Founded

/-- The operands of an expression stand before it, and the left one has its type. So to go from an
    expression to an operand always leads further to the front. -/
theorem expression {op : Operator} {lhs rhs : NodeId} (hf : design.Founded)
    (hn : design.node? id = some node) (hr : node.role? = some (.expression op lhs rhs)) :
    lhs < id ∧ rhs < id ∧ ∃ left right, design.node? lhs = some left ∧
      design.node? rhs = some right ∧ node.type = left.type := by
  obtain ⟨⟨-, hrole⟩, hlt⟩ := hf id node hn
  rw [Node.role?_detached, hr] at hrole
  obtain ⟨left, right, hleft, hright, htype⟩ := hrole
  have hrefs : node.references = [lhs, rhs] := by rw [Node.references, hr]
  refine ⟨hlt lhs ?_, hlt rhs ?_, left, right, hleft, hright, ?_⟩
  · rw [hrefs]; exact List.mem_cons_self
  · rw [hrefs]; exact List.mem_cons_of_mem lhs List.mem_cons_self
  · rw [← htype, Node.type_detached]

/-- The default of a parameter is a literal that stands before it. -/
theorem default {value : NodeId} (hf : design.Founded) (hn : design.node? id = some node)
    (hr : node.role? = some (.parameter (some value))) :
    value < id ∧ ∃ literal, design.node? value = some literal ∧ literal.isLiteral = true := by
  obtain ⟨⟨-, hrole⟩, hlt⟩ := hf id node hn
  rw [Node.role?_detached, hr] at hrole
  have hrefs : node.references = [value] := by rw [Node.references, hr]; rfl
  exact ⟨hlt value (by rw [hrefs]; exact List.mem_cons_self), hrole⟩

/-- Every step of a walk along references leads to an earlier place. -/
theorem length_le (hf : design.Founded) {walk : List NodeId}
    (h : (id :: walk).IsChain design.Refers) : walk.length ≤ id := by
  induction walk generalizing id with
  | nil => exact Nat.zero_le id
  | cons target walk ih =>
    obtain ⟨⟨node, hn, hmem⟩, hwalk⟩ := List.isChain_cons_cons.mp h
    have hlt : target < id := (hf id node hn).2 target hmem
    exact Nat.succ_le_of_lt (Nat.lt_of_le_of_lt (ih hwalk) hlt)

/-- The left operands of a node lead to a node of its type. The walk ends, as each operand stands
    before its expression, and it ends at a node that is no expression. -/
theorem exists_leftLeaf (hf : design.Founded) (hn : design.node? id = some node) :
    ∃ leaf last, design.LeftLeaf id leaf ∧ design.node? leaf = some last ∧
      last.tag ≠ .expression ∧ last.type = node.type := by
  -- The induction is on the place, since a left operand stands before its expression.
  induction id using Nat.strong_induction_on generalizing node with
  | h id ih =>
    by_cases ht : node.tag = .expression
    · obtain ⟨op, lhs, rhs, hr⟩ := Node.role?_of_tag ht
      obtain ⟨hlt, -, left, -, hleft, -, htype⟩ := hf.expression hn hr
      obtain ⟨leaf, last, hleaf, hlast, htag, hsame⟩ := ih lhs hlt hleft
      exact ⟨leaf, last, .left hn hr hleaf, hlast, htag, hsame.trans htype.symm⟩
    · exact ⟨id, node, .leaf hn ht, hn, ht, rfl⟩

end Founded

/-- The left operands of a node lead to one node only, so that one can speak of the leftmost leaf of
    an expression. -/
theorem LeftLeaf.unique {other : NodeId} (h : design.LeftLeaf id leaf)
    (h' : design.LeftLeaf id other) : other = leaf := by
  -- A node is an expression or it is not, and an expression has one left operand. So both walks
  -- take the same step in each place.
  induction h with
  | leaf hn ht =>
    cases h' with
    | leaf => rfl
    | left hn' hr =>
      obtain rfl := Option.some.inj (hn.symm.trans hn')
      exact absurd (Node.tag_of_role? hr) ht
  | left hn hr _ ih =>
    cases h' with
    | leaf hn' ht =>
      obtain rfl := Option.some.inj (hn.symm.trans hn')
      exact absurd (Node.tag_of_role? hr) ht
    | left hn' hr' h' =>
      obtain rfl := Option.some.inj (hn.symm.trans hn')
      obtain ⟨-, rfl, -⟩ : _ ∧ _ ∧ _ := by simpa using hr.symm.trans hr'
      exact ih h'

end Design

/-! ### Runs -/

namespace Session

open Design

/-- Behind any run of commands, what a node refers to stands before it. -/
theorem founded_run (name : String) (policy : Policy) (commands : List Command) :
    ((start name policy).run commands).design.Founded :=
  (reaches_run (wired_start name policy) commands).founded
    fun id node h => absurd h (by simp [node?, start])

/-- Behind any run of commands, the operands of an expression stand before it, and it has the type
    of the left one. The default of a parameter is a literal that stands before it. Therefore a walk
    along operands and defaults ends, within as many steps as there are places before its start,
    and the left operands of a node lead to one node that is no expression and has its type. -/
theorem operands_of_run (name : String) (policy : Policy) (commands : List Command) :
    let design := ((start name policy).run commands).design
    (∀ id node op lhs rhs, design.node? id = some node →
      node.role? = some (.expression op lhs rhs) →
      lhs < id ∧ rhs < id ∧ ∃ left right, design.node? lhs = some left ∧
        design.node? rhs = some right ∧ node.type = left.type) ∧
    (∀ id node value, design.node? id = some node →
      node.role? = some (.parameter (some value)) →
      value < id ∧ ∃ literal, design.node? value = some literal ∧ literal.isLiteral = true) ∧
    (∀ id walk, (id :: walk).IsChain design.Refers → walk.length ≤ id) ∧
    ∀ id node, design.node? id = some node →
      ∃ leaf last, (∀ other, design.LeftLeaf id other ↔ other = leaf) ∧
        design.node? leaf = some last ∧ last.tag ≠ .expression ∧ last.type = node.type := by
  intro design
  have hf : design.Founded := founded_run name policy commands
  refine ⟨fun id node op lhs rhs hn hr => hf.expression hn hr,
    fun id node value hn hr => hf.default hn hr, fun id walk h => hf.length_le h,
    fun id node hn => ?_⟩
  -- The leaf is found by following left operands, and no second one can be reached.
  obtain ⟨leaf, last, hleaf, hlast, htag, htype⟩ := hf.exists_leftLeaf hn
  refine ⟨leaf, last, fun other => ⟨hleaf.unique, ?_⟩, hlast, htag, htype⟩
  rintro rfl
  exact hleaf

/-- The copy of a sum refers to the parameter that the sum does, and the parameter to its default.
    That the sum drives the parameter adds no reference. -/
theorem operands_of_copied_sum :
    let commands : List Command :=
      [.intLiteral 3, .parameter "p" .integer (some 0), .namedExpression "s" .add 1 0, .copy 2,
        .connect 1 2]
    let design := ((start "top" .lenient).run commands).design
    ∃ sum parameter, design.node? 3 = some sum ∧ sum.role? = some (.expression .add 1 0) ∧
      (1 < 3 ∧ 0 < 3 ∧ ∃ left right, design.node? 1 = some left ∧ design.node? 0 = some right ∧
        sum.type = left.type) ∧
      design.node? 1 = some parameter ∧ parameter.role? = some (.parameter (some 0)) ∧
      (∃ literal, design.node? 0 = some literal ∧ literal.isLiteral = true) ∧
      [3, 1, 0].IsChain design.Refers ∧ [1, 0].length ≤ 3 ∧
      (∀ other, design.LeftLeaf 3 other ↔ other = 1) ∧ design.driver? 1 = some 2 := by
  intro commands design
  obtain ⟨hexpression, hdefault, hwalk, hleaf⟩ := operands_of_run "top" .lenient commands
  have hchain : [3, 1, 0].IsChain design.Refers :=
    .cons_cons ⟨_, rfl, by decide⟩ (.cons_cons ⟨_, rfl, by decide⟩ (.singleton 0))
  obtain ⟨leaf, last, hother, -⟩ := hleaf 3 _ rfl
  obtain rfl : 1 = leaf := (hother 1).mp (.left rfl rfl (.leaf rfl (by decide)))
  exact ⟨_, _, rfl, rfl, hexpression 3 _ .add 1 0 rfl rfl, rfl, rfl, (hdefault 1 _ 0 rfl rfl).2,
    hchain, hwalk 3 [1, 0] hchain, hother, rfl⟩

end Session

end Schematic
