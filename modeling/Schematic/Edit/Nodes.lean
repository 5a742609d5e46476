import Schematic.Edit.Basic

namespace Schematic.Edit

/-!
# Making nodes

* `insert` — a new node of any kind;
* `port`, `signal`, `parameter`, `literal`, `namedExpression` — nodes with a chosen name;
* `literalOfString`, `intLiteral`, `stringLiteral`, `boolLiteral`, `expression` — nodes with a
  made-up name;
* `copy` — the copy of a node;
* `flipPort` — a change of direction, the one change that a node allows.
-/

/-- Adds a node. -/
def insert (naming : Naming) (node : Node) : Edit NodeId := do
  let id := (← design).nodeCount
  note (.created id node.tag node.name node.type.name)
  change (·.insert naming node)
  return id

/-! ### Chosen names -/

/-- Adds a port. -/
def port (name : String) (type : DataType) (direction : Direction) : Edit NodeId :=
  insert .declared (.ofRole name type (.port direction))

/-- Adds a port named after its type. -/
def portOfType (type : DataType) (direction : Direction) : Edit NodeId :=
  port type.name type direction

/-- Adds a signal. -/
def signal (name : String) (type : DataType) : Edit NodeId :=
  insert .declared (.ofRole name type .signal)

/-- Adds a signal named after its type. -/
def signalOfType (type : DataType) : Edit NodeId :=
  signal (type.name ++ "_signal") type

/-- Adds a parameter. A default has to be a literal. -/
def parameter (name : String) (type : DataType) (default : Option NodeId) : Edit NodeId := do
  if let some id := default then
    MonadExcept.ofExcept ((← node id).require .literal)
  insert .declared (.ofRole name type (.parameter default))

/-- Adds a literal. -/
def literal (name : String) (type : DataType) (value : Constant) : Edit NodeId :=
  insert .declared (.ofConstant name type value)

/-- Adds an expression. It has the type of its left operand. -/
def namedExpression (name : String) (op : Operator) (lhs rhs : NodeId) : Edit NodeId := do
  let left ← node lhs
  let _ ← node rhs
  insert .declared (.ofRole name left.type (.expression op lhs rhs))

/-! ### Made-up names -/

/-- Adds a literal named after the text that is its value. -/
def literalOfString (type : DataType) (value : String) : Edit NodeId :=
  insert .derived (.ofConstant value type (.string value))

/-- Adds a literal for an integer. -/
def intLiteral (value : Int64) : Edit NodeId :=
  insert .derived (.ofConstant ("int" ++ toString value.toInt) .integer (.int value))

/-- Adds a literal for a text. -/
def stringLiteral (value : String) : Edit NodeId :=
  insert .derived (.ofConstant ("str:" ++ value) .string (.string value))

/-- The literal for a truth value, which is made at its first use. -/
def boolLiteral (value : Bool) : Edit NodeId := do
  match (← design).shared? value with
  | some id => return id
  | none =>
    let name := if value then "bool_true" else "bool_false"
    let id ← insert .derived (.ofConstant name .boolean (.bool value))
    change (·.share value id)
    return id

/-- Adds an expression named after its operands. -/
def expression (op : Operator) (lhs rhs : NodeId) : Edit NodeId := do
  let left ← node lhs
  let right ← node rhs
  let name := left.display ++ op.symbol ++ right.display
  insert .derived (.ofRole name left.type (.expression op lhs rhs))

/-! ### Copies and directions -/

/-- Adds a copy of a node, without its edges. The copy cannot be found by its name. -/
def copy (id : NodeId) : Edit NodeId := do
  let template ← node id
  let made := (← design).nodeCount
  note (.copied made id)
  change (·.insertUnnamed template.detached)
  return made

/-- Turns a port around and gives its new direction. -/
def flipPort (id : NodeId) : Edit Direction := do
  let node ← node id
  match node.role? with
  | some (.port direction) =>
    change (·.updateNode id (Node.withRole (.port direction.flip)))
    return direction.flip
  | _ => throw (.tagMismatch node.name .port node.tag)

end Schematic.Edit
