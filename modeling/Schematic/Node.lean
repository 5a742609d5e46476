import Schematic.DataType
import Schematic.Direction
import Schematic.Error
import Schematic.Operator
import Schematic.Pins

namespace Schematic

/-!
# Nodes

* `Role` — what a node that can be driven is for;
* `Body` — a literal, which has a fan-out alone, or a role with pins;
* `Node` — a body with a name and a type;
* `Node.attach?`, `Node.detach?` — one side of an edge;
* `Node.detached` — the node without its edges.
-/

/-- What a node that can be driven is for. -/
inductive Role where
  /-- A terminal on the boundary of the design. -/
  | port (direction : Direction)
  /-- An internal wire. -/
  | signal
  /-- A value that can be set, with the literal that it has otherwise. -/
  | parameter (default : Option NodeId)
  /-- An operation on two other nodes. -/
  | expression (op : Operator) (lhs rhs : NodeId)
deriving DecidableEq, Repr

/-- The variant of a role. -/
def Role.tag : Role → Tag
  | .port _ => .port
  | .signal => .signal
  | .parameter _ => .parameter
  | .expression .. => .expression

/-- What a node is, and its edges. A literal drives other nodes and is never driven. -/
inductive Body where
  | literal (value : Constant) (fanOut : FanOut)
  | wired (role : Role) (pins : Pins)
deriving DecidableEq, Repr

/-- A node of a design. -/
structure Node where
  /-- The name. Several nodes may have the same one. -/
  name : String
  /-- The type of its value. -/
  type : DataType
  /-- What it is, and its edges. -/
  body : Body
deriving DecidableEq, Repr

namespace Node

/-- A node with a role and no edges. -/
def ofRole (name : String) (type : DataType) (role : Role) : Node :=
  ⟨name, type, .wired role {}⟩

/-- A literal without edges. -/
def ofConstant (name : String) (type : DataType) (value : Constant) : Node :=
  ⟨name, type, .literal value {}⟩

/-- The variant of the node. -/
def tag (node : Node) : Tag :=
  match node.body with
  | .literal .. => .literal
  | .wired role _ => role.tag

/-- Whether the node is a literal. -/
def isLiteral (node : Node) : Bool := node.tag = .literal

/-- The role of a node that can be driven. -/
def role? (node : Node) : Option Role :=
  match node.body with
  | .literal .. => none
  | .wired role _ => some role

/-- The value of a literal. -/
def value? (node : Node) : Option Constant :=
  match node.body with
  | .literal value _ => some value
  | .wired .. => none

/-- The edge that drives the node. A literal has none. -/
def input (node : Node) : Option EdgeId :=
  match node.body with
  | .literal .. => none
  | .wired _ pins => pins.input

/-- The edges that the node drives, in the order of connection. -/
def outputs (node : Node) : List EdgeId :=
  match node.body with
  | .literal _ fanOut => fanOut.outputs
  | .wired _ pins => pins.outputs

/-- The form of the node in names and listings: a literal shows its value, any other node its
    name. -/
def display (node : Node) : String :=
  match node.body with
  | .literal value _ => value.display
  | .wired .. => node.name

/-- Enters one side of an edge on the node, which stands in place `owner`. -/
def attach? (owner : NodeId) (edge : Edge) (node : Node) : Option Node :=
  match node.body with
  | .literal value fanOut =>
    (fanOut.attach? owner edge).map fun fanOut => { node with body := .literal value fanOut }
  | .wired role pins =>
    (pins.attach? owner edge).map fun pins => { node with body := .wired role pins }

/-- Removes one side of an edge from the node, which stands in place `owner`. -/
def detach? (owner : NodeId) (edge : Edge) (node : Node) : Option Node :=
  match node.body with
  | .literal value fanOut =>
    (fanOut.detach? owner edge).map fun fanOut => { node with body := .literal value fanOut }
  | .wired role pins =>
    (pins.detach? owner edge).map fun pins => { node with body := .wired role pins }

/-- The node without its edges. -/
def detached (node : Node) : Node :=
  match node.body with
  | .literal value _ => { node with body := .literal value {} }
  | .wired role _ => { node with body := .wired role {} }

/-- The node in another role. A literal stays as it is. -/
def withRole (role : Role) (node : Node) : Node :=
  match node.body with
  | .literal .. => node
  | .wired _ pins => { node with body := .wired role pins }

/-- Refuses a node that is not of the variant `expected`. -/
def require (node : Node) (expected : Tag) : Except Error Unit :=
  if node.tag = expected then .ok ()
  else .error (.tagMismatch node.name expected node.tag)

/-- The value of a literal of the kind `expected`. Another node is refused, and so is a literal of
    another kind. -/
def readValue (node : Node) (expected : Storage) : Except Error Constant :=
  match node.value? with
  | none => .error (.tagMismatch node.name .literal node.tag)
  | some value =>
    if value.storage = expected then .ok value
    else .error (.storageMismatch expected value.storage)

end Node

end Schematic
