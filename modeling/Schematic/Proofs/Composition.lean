import Schematic.Edit.Command
import Schematic.Netlist.Build

namespace Schematic

open Netlist

/-!
# Edits and their parts

Most edits are made of others, and what holds of the parts holds of the whole: that a property of
sessions is preserved, or that another policy makes no difference. This module goes through the
composite edits once, for every property of edits that passes from the parts to the whole, so that
such a property has to be proved for the parts alone.

Lookups are parts as well, and they change nothing. What an edit does behind a look at the design
may depend on what it has seen there, but of all composite edits only `Edit.release` asks for the
policy. A property need not pass through that one lookup, and `Edit.connect` is therefore a part of
its own.

* `Edit.Compositional` — the property of edits passes from parts to wholes: to a sequence of two
  edits, and so to loops and lookups (`Compositional.forM`, `Compositional.node`);
* `Compositional.defineType`, `Compositional.insert`, `Compositional.disconnect` — so it passes from
  a change and its note to the edit that consists of the two;
* `Edit.CoversNodes` — it holds of the parts that make nodes, and so of each declaration of a
  netlist (`CoversNodes.declare`) and of a whole netlist, if it holds for types and edges too
  (`CoversNodes.build`);
* `Edit.CoversCommands` — a property, of this kind or not, holds of the edits that commands come
  down to, and so of the commands (`CoversCommands.run`).

A property is given to this module as a predicate on edits of every type of value, and comes back as
the same predicate on all the edits that are made of parts. The steps of each proof are those of the
edit: a rule for each way of putting edits together, in the order in which the edit puts them, and a
part wherever something is changed. Nothing is said about what the edits do, so that a change to a
composite edit is followed up here, and in no proof of a property.
-/

namespace Edit

variable {α β σ : Type}

/-- The property of edits passes from the parts of an edit to the whole. What follows a look at the
    design has to depend on other things than the policy. -/
structure Compositional (Q : {α : Type} → Edit α → Prop) : Prop where
  pure : ∀ {α : Type} (value : α), Q (pure value)
  throw : ∀ {α : Type} (error : Error), Q (throw error : Edit α)
  bind : ∀ {α β : Type} {first : Edit α} {next : α → Edit β},
    Q first → (∀ value, Q (next value)) → Q (first >>= next)
  bind_design : ∀ {β : Type} {next : Design → Edit β},
    (∀ design policy, next { design with policy } = next design) →
      (∀ design, Q (next design)) → Q (Edit.design >>= next)

namespace Compositional

variable {Q : {α : Type} → Edit α → Prop} (h : Compositional Q)

include h

/-! ### Lookups and loops -/

/-- What has been found out without the session is a value or an error. -/
theorem ofExcept (outcome : Except Error α) : Q (MonadExcept.ofExcept outcome : Edit α) := by
  cases outcome with
  | error error => exact h.throw error
  | ok value => exact h.pure value

/-- The policy has no say in which node is in a place. -/
theorem node (id : NodeId) : Q (Edit.node id) :=
  h.bind_design (fun _ _ => rfl) fun _ => h.ofExcept _

/-- It makes no difference what becomes of the value of an edit. -/
theorem map {edit : Edit α} (hedit : Q edit) (f : α → β) : Q (f <$> edit) := by
  rw [map_eq_pure_bind]
  exact h.bind hedit fun value => h.pure (f value)

/-- A loop is a sequence of its rounds. -/
theorem forM {body : α → Edit Unit} (hbody : ∀ x, Q (body x)) (xs : List α) :
    Q (xs.forM body) := by
  induction xs with
  | nil => exact h.pure ()
  | cons x xs ih => exact h.bind (hbody x) fun _ => ih

/-- A loop may hand a value on from round to round. It is a sequence of its rounds all the same, and
    ends with the last value. -/
theorem foldlM {body : σ → α → Edit σ} (hbody : ∀ acc x, Q (body acc x)) (xs : List α) (acc : σ) :
    Q (xs.foldlM body acc) := by
  induction xs generalizing acc with
  | nil => exact h.pure acc
  | cons x xs ih =>
    rw [List.foldlM_cons]
    exact h.bind (hbody acc x) fun acc => ih acc

/-- A name is looked up in the scope, and the session has no part in it. -/
theorem declared (scope : Registry) (name : String) : Q (Edit.declared scope name) := by
  unfold Edit.declared
  split
  · exact h.pure _
  · exact h.throw _

/-- The policy has no say in which types there are. -/
theorem declaredType (decl : NodeDecl) : Q (Edit.declaredType decl) := by
  refine h.bind_design (fun _ _ => rfl) fun design => ?_
  split
  · exact h.pure _
  · exact h.throw _

/-! ### Changes with their notes -/

/-- A type is declared by one change and without a note, if its name is not taken. -/
theorem defineType (hchange : ∀ types, Q (change fun design => { design with types }))
    (name : String) (shape : Shape) : Q (Edit.defineType name shape) := by
  refine h.bind_design (fun _ _ => rfl) fun design => ?_
  refine h.bind (h.ofExcept _) fun defined => ?_
  exact h.bind (hchange defined.2) fun _ => h.pure defined.1

/-- A node is made by one change behind its note. A property for which the two only go together has
    to be proved of the whole. -/
theorem insert (hnote : ∀ id tag name type, Q (note (.created id tag name type))) {naming : Naming}
    {node : Node} (hchange : Q (change (·.insert naming node))) : Q (Edit.insert naming node) := by
  refine h.bind_design (fun _ _ => rfl) fun design => ?_
  exact h.bind (hnote _ _ _ _) fun _ => h.bind hchange fun _ => h.pure _

/-- An edge is removed by one change in front of its note, if it is there. -/
theorem disconnect (hunlink : ∀ id edge, Q (change (·.unlink id edge)))
    (hnote : ∀ id name, Q (note (.disconnected id name))) (id : EdgeId) :
    Q (Edit.disconnect id) := by
  refine h.bind_design (fun _ _ => rfl) fun design => ?_
  split
  case h_1 => exact h.throw _
  case h_2 edge _ => exact h.bind (hunlink id edge) fun _ => hnote id edge.name

end Compositional

/-! ### Edits that make nodes -/

/-- The property holds of every new node, and of the note of the first literal of a truth value. All
    edits that make nodes out of something else than a copy come down to these two. -/
structure CoversNodes (Q : {α : Type} → Edit α → Prop) : Prop extends Compositional Q where
  insert : ∀ naming node, Q (Edit.insert naming node)
  share : ∀ value id, Q (Edit.change (·.share value id))

namespace CoversNodes

variable {Q : {α : Type} → Edit α → Prop} (h : CoversNodes Q)

include h

/-- The default of a parameter is looked at before the parameter is made. -/
theorem parameter (name : String) (type : DataType) (default : Option NodeId) :
    Q (Edit.parameter name type default) := by
  unfold Edit.parameter
  cases default with
  | none => exact h.insert _ _
  | some id =>
    refine h.bind (h.node id) fun node => ?_
    exact h.bind (h.ofExcept _) fun _ => h.insert _ _

/-- The operands of an expression are looked at before the expression is made. -/
theorem namedExpression (name : String) (op : Operator) (lhs rhs : NodeId) :
    Q (Edit.namedExpression name op lhs rhs) :=
  h.bind (h.node lhs) fun _ => h.bind (h.node rhs) fun _ => h.insert _ _

/-- It makes no difference that the name of the expression is made up. -/
theorem expression (op : Operator) (lhs rhs : NodeId) : Q (Edit.expression op lhs rhs) :=
  h.bind (h.node lhs) fun _ => h.bind (h.node rhs) fun _ => h.insert _ _

/-- A literal that has been noted before is not made again. -/
theorem boolLiteral (value : Bool) : Q (Edit.boolLiteral value) := by
  refine h.bind_design (fun _ _ => ?_) fun design => ?_
  · cases value <;> rfl
  · cases design.shared? value with
    | some id => exact h.pure id
    | none => exact h.bind (h.insert _ _) fun id => h.bind (h.share value id) fun _ => h.pure id

/-- Every constant gets a literal, or has one already. -/
theorem constant (value : Constant) : Q (Edit.constant value) := by
  cases value with
  | bool value => exact h.boolLiteral value
  | int value => exact h.insert _ _
  | string value => exact h.insert _ _

/-- An operand is a name to look up, or a constant to make a literal for. -/
theorem operand (scope : Registry) (operand : Operand) : Q (Edit.operand scope operand) := by
  cases operand with
  | node name => exact h.declared scope name
  | constant value => exact h.constant value

/-- The node of a declaration is the last one of those that are made for it. In front of it come the
    literals of a default or of operands that are constants. -/
theorem declareAs (scope : Registry) (decl : NodeDecl) (name : String) :
    Q (Edit.declareAs scope decl name) := by
  unfold Edit.declareAs
  split
  case h_1 | h_2 => exact h.bind (h.declaredType decl) fun _ => h.insert _ _
  case h_3 default _ =>
    refine h.bind (h.declaredType decl) fun type => ?_
    refine h.bind ?_ fun default => h.parameter name type default
    cases default with
    | none => exact h.pure none
    | some value => exact h.map (h.constant value) some
  case h_4 op lhs rhs _ =>
    refine h.bind (h.operand scope lhs) fun left => ?_
    exact h.bind (h.operand scope rhs) fun right => h.namedExpression name op left right

/-- A declaration with a name that is taken, or without one that it needs, fails before any node is
    made. -/
theorem declare (scope : Registry) (decl : NodeDecl) : Q (Edit.declare scope decl) := by
  refine h.bind (h.ofExcept _) fun name => ?_
  split
  case isTrue => exact h.throw _
  case isFalse => exact h.bind (h.declareAs scope decl name) fun id => h.pure _

/-! ### Netlists -/

/-- Both ends of a connection are found, or made, before they are connected. -/
theorem wire (hconnect : ∀ destination source, Q (Edit.connect destination source))
    (scope : Registry) (connection : Connection) : Q (Edit.wire scope connection) := by
  refine h.bind (h.declared scope _) fun destination => ?_
  refine h.bind (h.operand scope _) fun source => ?_
  exact h.map (hconnect destination source) _

/-- A netlist is built by one loop for its types, one for its nodes and one for its connections,
    with a note at the end. -/
theorem build (htype : ∀ name shape, Q (Edit.defineType name shape))
    (hconnect : ∀ destination source, Q (Edit.connect destination source))
    (hnote : ∀ name nodes edges, Q (Edit.note (.built name nodes edges))) (netlist : Netlist) :
    Q (Edit.build netlist) := by
  refine h.bind (h.forM (fun decl : TypeDecl => h.map (htype decl.name decl.shape) _) _) fun _ => ?_
  refine h.bind (h.foldlM h.declare _ _) fun scope => ?_
  refine h.bind (h.forM (h.wire hconnect scope) _) fun _ => ?_
  exact h.bind_design (fun _ _ => rfl) fun _ => hnote _ _ _

end CoversNodes

/-! ### Commands -/

/-- The property holds of every edit that a command can come down to, whatever becomes of the value.
    Such a property need not pass from the parts of an edit to the whole. -/
structure CoversCommands (Q : {α : Type} → Edit α → Prop) : Prop where
  map : ∀ {α β : Type} {edit : Edit α}, Q edit → ∀ f : α → β, Q (f <$> edit)
  defineType : ∀ name shape, Q (Edit.defineType name shape)
  insert : ∀ naming node, Q (Edit.insert naming node)
  parameter : ∀ name type default, Q (Edit.parameter name type default)
  boolLiteral : ∀ value, Q (Edit.boolLiteral value)
  expression : ∀ op lhs rhs, Q (Edit.expression op lhs rhs)
  namedExpression : ∀ name op lhs rhs, Q (Edit.namedExpression name op lhs rhs)
  copy : ∀ id, Q (Edit.copy id)
  flipPort : ∀ id, Q (Edit.flipPort id)
  connect : ∀ destination source, Q (Edit.connect destination source)
  disconnect : ∀ id, Q (Edit.disconnect id)

/-- Every command is one of the edits, and its reply is what the edit gives back. A property of
    edits that passes through their composition thus holds of all commands. -/
theorem CoversCommands.run {Q : {α : Type} → Edit α → Prop} (h : CoversCommands Q)
    (command : Command) : Q command.run := by
  cases command <;> refine h.map ?_ _
  -- Ports, signals and literals of all sorts are new nodes, and a connection can be asked for from
  -- either end.
  case defineType name shape => exact h.defineType name shape
  case port | portOfType | signal | signalOfType => exact h.insert _ _
  case literal | literalOfString | intLiteral | stringLiteral => exact h.insert _ _
  case parameter name type default => exact h.parameter name type default
  case boolLiteral value => exact h.boolLiteral value
  case expression op lhs rhs => exact h.expression op lhs rhs
  case namedExpression name op lhs rhs => exact h.namedExpression name op lhs rhs
  case copy id => exact h.copy id
  case flipPort id => exact h.flipPort id
  case connect destination source => exact h.connect destination source
  case addSink id sink => exact h.connect sink id
  case addSource id source => exact h.connect id source
  case disconnect id => exact h.disconnect id

end Edit

end Schematic
