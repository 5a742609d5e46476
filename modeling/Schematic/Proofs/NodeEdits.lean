import Schematic.Edit.Nodes
import Schematic.Proofs.NodeTable

namespace Schematic

/-!
# Outcomes of making nodes

Every edit that makes a node either adds one node, to which the design has all that it refers to, or
fails and leaves the session as it was.

* `Design.Admits` — the nodes that a new node refers to are there;
* `Session.perform_insert` — adding a node never fails;
* `Session.perform_parameter`, `Session.perform_expression` and their neighbours — the outcome of
  each edit.

Each edit is a few look-ups and checks followed by one change. The lemmas run it once and for all: a
case for each way in which a look-up or a check can end, and in each case the error and the
untouched session, or the place of the new node and the session with it. What follows about runs of
commands takes these outcomes as they stand and does not open an edit again.
-/

/-- A new node has no edges. The default of a parameter is a literal of the design, and the operands
    of an expression are nodes of the design, the left one of the same type. -/
def Design.Admits (design : Design) (node : Node) : Prop :=
  node.detached = node ∧
    match node.role? with
    | some (.parameter (some id)) =>
      ∃ default, design.node? id = some default ∧ default.isLiteral = true
    | some (.expression _ lhs rhs) =>
      ∃ left right, design.node? lhs = some left ∧ design.node? rhs = some right ∧
        node.type = left.type
    | _ => True

/-- A constant refers to no node, so that there is always room for its literal. -/
theorem Design.Admits.ofConstant (design : Design) (name : String) (type : DataType)
    (value : Constant) : design.Admits (.ofConstant name type value) := ⟨rfl, trivial⟩

/-- A parameter can be added exactly if its default, where it has one, is a literal of the
    design. -/
theorem Design.admits_parameter {design : Design} {name : String} {type : DataType}
    {default : Option NodeId} :
    design.Admits (.ofRole name type (.parameter default)) ↔
      ∀ id, default = some id → ∃ node, design.node? id = some node ∧ node.isLiteral = true := by
  cases default with
  | none => exact ⟨fun _ _ h => absurd h (by simp), fun _ => ⟨rfl, trivial⟩⟩
  | some id =>
    -- With a default, the condition speaks of this one node.
    constructor
    · rintro ⟨-, h⟩ _ ⟨⟩
      exact h
    · intro h
      exact ⟨rfl, h id rfl⟩

/-- An expression can be added if both its operands are nodes of the design and it has the type of
    the left one. -/
theorem Design.admits_expression {design : Design} {name : String} {type : DataType}
    {op : Operator} {lhs rhs : NodeId} {left right : Node} (hl : design.node? lhs = some left)
    (hr : design.node? rhs = some right) (ht : type = left.type) :
    design.Admits (.ofRole name type (.expression op lhs rhs)) :=
  ⟨rfl, left, right, hl, hr, ht⟩

namespace Session

variable {session : Session}

/-- The session behind a new node. -/
def inserted (session : Session) (naming : Naming) (node : Node) : Session where
  design := session.design.insert naming node
  journal := session.journal.push
    (.created session.design.nodeCount node.tag node.name node.type.name)

/-- Adding a node never fails: the answer is its place, which was the first free one, and the
    journal says what has been made. -/
@[simp] theorem perform_insert (session : Session) (naming : Naming) (node : Node) :
    session.perform (Edit.insert naming node) =
      (.ok session.design.nodeCount, session.inserted naming node) := by
  simp [Edit.insert, inserted, Except.map]

/-- A declaration has the outcome of the type table. If it is refused nothing changes, and otherwise
    nothing but the types. -/
theorem perform_defineType (session : Session) (name : String) (shape : Shape) :
    session.perform (Edit.defineType name shape) =
      match session.design.types.define name shape with
      | .error error => (.error error, session)
      | .ok (type, types) =>
        (.ok type, { session with design := { session.design with types } }) := by
  rw [Edit.defineType, perform_bind, perform_design]
  simp only [perform_bind, perform_ofExcept]
  cases session.design.types.define name shape <;> rfl

/-- A parameter is made if its default is a literal. A default that is not there or is another kind
    of node is refused before anything is changed. -/
theorem perform_parameter (session : Session) (name : String) (type : DataType)
    (default : Option NodeId) :
    (session.design.Admits (.ofRole name type (.parameter default)) ∧
      session.perform (Edit.parameter name type default) =
        (.ok session.design.nodeCount,
          session.inserted .declared (.ofRole name type (.parameter default)))) ∨
    (¬ session.design.Admits (.ofRole name type (.parameter default)) ∧
      ∃ error, session.perform (Edit.parameter name type default) = (.error error, session)) := by
  rw [Design.admits_parameter]
  -- Only a default can be in the way, by not being there or by not being a literal.
  cases default with
  | none => exact .inl ⟨fun _ h => absurd h (by simp), by simp [Edit.parameter]⟩
  | some id =>
    cases hn : session.design.node? id with
    | none =>
      refine .inr ⟨fun h => ?_, .invalidNodeId id, by simp [Edit.parameter, Design.node, hn]⟩
      obtain ⟨node, hnode, -⟩ := h id rfl
      exact absurd (hn.symm.trans hnode) (by simp)
    | some node =>
      by_cases hl : node.isLiteral = true
      · have htag : node.tag = .literal := by simpa [Node.isLiteral] using hl
        refine .inl ⟨?_, by simp [Edit.parameter, Design.node, hn, Node.require, htag]⟩
        rintro _ ⟨⟩
        exact ⟨node, hn, hl⟩
      · have htag : node.tag ≠ .literal := by simpa [Node.isLiteral] using hl
        refine .inr ⟨fun h => ?_, .tagMismatch node.name .literal node.tag,
          by simp [Edit.parameter, Design.node, hn, Node.require, htag]⟩
        obtain ⟨node', hnode, hl'⟩ := h id rfl
        obtain rfl : node = node' := Option.some.inj (hn.symm.trans hnode)
        exact hl hl'

/-- An expression with a chosen name is made if its operands are there, with the type of the left
    one. What kinds of nodes they are does not matter. -/
theorem perform_namedExpression (session : Session) (name : String) (op : Operator)
    (lhs rhs : NodeId) :
    session.perform (Edit.namedExpression name op lhs rhs) =
      match session.design.node? lhs, session.design.node? rhs with
      | some left, some _ =>
        (.ok session.design.nodeCount,
          session.inserted .declared (.ofRole name left.type (.expression op lhs rhs)))
      | none, _ => (.error (.invalidNodeId lhs), session)
      | some _, none => (.error (.invalidNodeId rhs), session) := by
  -- Four cases, by which of the two operands are there. A missing left operand is reported first.
  cases hl : session.design.node? lhs <;> cases hr : session.design.node? rhs <;>
    simp [Edit.namedExpression, Design.node, hl, hr]

/-- An expression without a chosen name is made if its operands are there, and is named after them
    and its operator. -/
theorem perform_expression (session : Session) (op : Operator) (lhs rhs : NodeId) :
    session.perform (Edit.expression op lhs rhs) =
      match session.design.node? lhs, session.design.node? rhs with
      | some left, some right =>
        (.ok session.design.nodeCount,
          session.inserted .derived
            (.ofRole (left.display ++ op.symbol ++ right.display) left.type
              (.expression op lhs rhs)))
      | none, _ => (.error (.invalidNodeId lhs), session)
      | some _, none => (.error (.invalidNodeId rhs), session) := by
  cases hl : session.design.node? lhs <;> cases hr : session.design.node? rhs <;>
    simp [Edit.expression, Design.node, hl, hr]

/-- The literal of a truth value is made once. From then on its id is given back, and nothing
    changes. -/
theorem perform_boolLiteral (session : Session) (value : Bool) :
    session.perform (Edit.boolLiteral value) =
      match session.design.shared? value with
      | some id => (.ok id, session)
      | none =>
        let made := session.inserted .derived
          (.ofConstant (if value then "bool_true" else "bool_false") .boolean (.bool value))
        (.ok session.design.nodeCount,
          { made with design := made.design.share value session.design.nodeCount }) := by
  cases hs : session.design.shared? value <;> simp [Edit.boolLiteral, hs, Except.map]

/-- A node is copied if it is there. The copy has no edges and is not entered in the registry, and
    the journal notes from which node it comes. -/
theorem perform_copy (session : Session) (id : NodeId) :
    session.perform (Edit.copy id) =
      match session.design.node? id with
      | some template =>
        (.ok session.design.nodeCount,
          { design := session.design.insertUnnamed template.detached,
            journal := session.journal.push (.copied session.design.nodeCount id) })
      | none => (.error (.invalidNodeId id), session) := by
  cases hn : session.design.node? id <;> simp [Edit.copy, Design.node, hn, Except.map]

/-- A port is turned around, and the answer is its new direction. A node of any other kind is
    refused, and so is an empty place. -/
theorem perform_flipPort (session : Session) (id : NodeId) :
    session.perform (Edit.flipPort id) =
      match session.design.node? id with
      | none => (.error (.invalidNodeId id), session)
      | some node =>
        match node.role? with
        | some (.port direction) =>
          (.ok direction.flip,
            { session with
              design := session.design.updateNode id (.withRole (.port direction.flip)) })
        | _ => (.error (.tagMismatch node.name .port node.tag), session) := by
  cases hn : session.design.node? id with
  | none => simp [Edit.flipPort, Design.node, hn]
  | some node =>
    -- Of the roles only that of a port is accepted, and a literal has none.
    rcases hr : node.role? with _ | (_ | _ | _ | _) <;>
      simp [Edit.flipPort, Design.node, hn, hr, Except.map]

end Session

end Schematic
