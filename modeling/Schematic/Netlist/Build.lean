import Schematic.Edit.Nodes
import Schematic.Edit.Wiring
import Schematic.Netlist.Basic

namespace Schematic

/-!
# Designs from netlists

A netlist is built in the order of its lines, first all types, then all nodes, then all connections.
So an expression can refer to earlier nodes only, and a connection to all.

* `Netlist.NodeDecl.effectiveName` — the name of a declared node, given or not;
* `Edit.declare`, `Edit.wire` — one declaration, one connection;
* `Edit.build` — a whole netlist;
* `Netlist.toDesign` — the design of a netlist.
-/

namespace Netlist

/-- The name of the type that a declaration refers to. -/
def NodeDecl.effectiveType (decl : NodeDecl) : String := decl.typeName.getD ""

/-- The name of a declared node. A port or a signal without a name is named after its type. -/
def NodeDecl.effectiveName (decl : NodeDecl) : Except Error String :=
  match decl.name, decl.form with
  | some name, _ => .ok name
  | none, .port _ => .ok decl.effectiveType
  | none, .signal => .ok (decl.effectiveType ++ "_signal")
  | none, .parameter _ => .error (.grammar decl.line (.unnamed .param))
  | none, .expression .. => .error (.grammar decl.line (.unnamed .expr))

/-- The name of the design, which is `top` where nothing else is said. -/
def designName (netlist : Netlist) : String := netlist.name.getD "top"

end Netlist

namespace Edit

open Netlist

/-- The literal for a constant: a new one, or the shared one of a truth value. -/
def constant : Constant → Edit NodeId
  | .bool value => boolLiteral value
  | .int value => intLiteral value
  | .string value => stringLiteral value

/-- The node declared under a name. -/
def declared (scope : Registry) (name : String) : Edit NodeId :=
  match scope.find? name with
  | some id => return id
  | none => throw (.nodeNotFound name)

/-- The node that an operand stands for. -/
def operand (scope : Registry) : Operand → Edit NodeId
  | .node name => declared scope name
  | .constant value => constant value

/-- The type that a declaration refers to. -/
def declaredType (decl : NodeDecl) : Edit DataType := do
  match (← design).types.find? decl.effectiveType with
  | some type => return type
  | none => throw (.unknownType decl.effectiveType decl.line)

/-- Adds the node of a declaration under the given name. -/
def declareAs (scope : Registry) (decl : NodeDecl) (name : String) : Edit NodeId := do
  match decl.form with
  | .port direction => port name (← declaredType decl) direction
  | .signal => signal name (← declaredType decl)
  | .parameter default =>
    let type ← declaredType decl
    let default ← default.mapM constant
    parameter name type default
  | .expression op lhs rhs =>
    let lhs ← operand scope lhs
    let rhs ← operand scope rhs
    namedExpression name op lhs rhs

/-- Adds the node of a declaration and enters it in the scope. A name can be declared once. -/
def declare (scope : Registry) (decl : NodeDecl) : Edit Registry := do
  let name ← MonadExcept.ofExcept decl.effectiveName
  if (scope.find? name).isSome then throw (.duplicateNode name)
  let id ← declareAs scope decl name
  return scope.register name id

/-- Makes a connection. -/
def wire (scope : Registry) (connection : Connection) : Edit Unit := do
  let destination ← declared scope connection.destination
  let source ← operand scope connection.source
  discard (connect destination source)

/-- Builds a netlist. -/
def build (netlist : Netlist) : Edit Unit := do
  netlist.types.forM fun decl => discard (defineType decl.name decl.shape)
  let scope ← netlist.nodes.foldlM declare {}
  netlist.connections.forM (wire scope)
  let design ← design
  note (.built design.name design.nodeCount design.edgeCount)

end Edit

namespace Netlist

/-- The outcome of building a netlist, and the session behind it. -/
def build (netlist : Netlist) (policy : Policy) : Except Error Unit × Session :=
  (Session.start netlist.designName policy).perform (Edit.build netlist)

/-- The design of a netlist. -/
def toDesign (netlist : Netlist) (policy : Policy) : Except Error Design :=
  let (outcome, session) := netlist.build policy
  outcome.map fun _ => session.design

end Netlist

end Schematic
