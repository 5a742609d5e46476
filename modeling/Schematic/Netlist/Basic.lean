import Schematic.Constant
import Schematic.DataType
import Schematic.Direction
import Schematic.Operator

namespace Schematic

/-!
# Netlists

What the text of a netlist declares, in the order of its lines and with their numbers.

* `Operand` — a constant, or the name of a node;
* `TypeDecl`, `NodeDecl`, `Connection` — the lines;
* `Netlist` — all of them, by kind.
-/

namespace Netlist

/-- What can drive a node: another node, or a constant on the spot. -/
inductive Operand where
  | constant (value : Constant)
  | node (name : String)
deriving DecidableEq, Repr

/-- The declaration of a type. -/
structure TypeDecl where
  /-- The name of the type. -/
  name : String
  /-- The shape of its data. -/
  shape : Shape
  /-- The number of the line. -/
  line : Nat
deriving DecidableEq, Repr

/-- What a declared node is. -/
inductive NodeForm where
  | port (direction : Direction)
  | signal
  | parameter (default : Option Constant)
  | expression (op : Operator) (lhs rhs : Operand)
deriving DecidableEq, Repr

/-- The declaration of a node. -/
structure NodeDecl where
  /-- The name. A port or a signal can be without one. -/
  name : Option String
  /-- What the node is. -/
  form : NodeForm
  /-- The name of the type. An expression is without one, since it has the type of its left
      operand. -/
  typeName : Option String
  /-- The number of the line. -/
  line : Nat
deriving DecidableEq, Repr

/-- A connection: the source drives the destination. -/
structure Connection where
  /-- The name of the driven node. -/
  destination : String
  /-- What drives it. -/
  source : Operand
  /-- The number of the line. -/
  line : Nat
deriving DecidableEq, Repr

end Netlist

/-- The declarations of a netlist. -/
structure Netlist where
  /-- The name of the design. -/
  name : Option String := none
  /-- The types. -/
  types : List Netlist.TypeDecl := []
  /-- The nodes. -/
  nodes : List Netlist.NodeDecl := []
  /-- The connections. -/
  connections : List Netlist.Connection := []
deriving DecidableEq, Repr

end Schematic
