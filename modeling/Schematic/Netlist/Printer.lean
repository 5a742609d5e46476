import Schematic.Netlist.Basic
import Schematic.Netlist.Form

namespace Schematic

/-!
# Writing netlists

The written form of a netlist: one statement a line, with a space between its words.

* `Netlist.writeString` — a string with its quotes and escapes;
* `Netlist.TypeDecl.words`, `Netlist.NodeDecl.words`, `Netlist.Connection.words` — statements;
* `Netlist.statements` — all statements, the name of the design first, then types, nodes and
  connections;
* `Netlist.render` — the text.
-/

/-- The words that a type declaration has for its shape. -/
def Shape.words : Shape → List String
  | .bit => ["bit"]
  | .boolean => ["boolean"]
  | .integer => ["integer"]
  | .string => ["string"]
  | .vector width => ["vector", toString width.toNat]

namespace Netlist

/-- A character inside a string. A quote, a backslash, a newline and a tab need a backslash. -/
def escape (c : Char) : List Char :=
  if c = '\n' then ['\\', 'n']
  else if c = '\t' then ['\\', 't']
  else if c = '"' ∨ c = '\\' then ['\\', c]
  else [c]

/-- A string with its quotes and escapes. -/
def writeString (text : String) : String :=
  String.ofList ('"' :: text.toList.flatMap escape ++ ['"'])

/-- The word for a constant. -/
def writeConstant : Constant → String
  | .bool value => if value then "true" else "false"
  | .int value => toString value.toInt
  | .string value => writeString value

/-- The word for an operand. -/
def Operand.word : Operand → String
  | .constant value => writeConstant value
  | .node name => name

/-- The words of a type declaration. -/
def TypeDecl.words (decl : TypeDecl) : List String :=
  Form.type.keyword :: decl.name :: decl.shape.words

/-- The words of a node declaration. -/
def NodeDecl.words (decl : NodeDecl) : List String :=
  let name := decl.name.toList
  let typeName := decl.typeName.toList
  match decl.form with
  | .port direction => Form.port.keyword :: name ++ direction.keyword :: typeName
  | .signal => Form.signal.keyword :: name ++ typeName
  | .parameter default =>
    Form.param.keyword :: name ++ typeName ++ (default.map writeConstant).toList
  | .expression op lhs rhs => Form.expr.keyword :: name ++ [op.word, lhs.word, rhs.word]

/-- The words of a connection. -/
def Connection.words (connection : Connection) : List String :=
  [Form.connect.keyword, connection.destination, connection.source.word]

/-- The words of each statement. -/
def statements (netlist : Netlist) : List (List String) :=
  (netlist.name.map fun name => [Form.graph.keyword, name]).toList ++
    netlist.types.map TypeDecl.words ++ netlist.nodes.map NodeDecl.words ++
    netlist.connections.map Connection.words

/-- The written form, with a newline behind each statement. -/
def render (netlist : Netlist) : String :=
  String.join (netlist.statements.map fun words => " ".intercalate words ++ "\n")

end Netlist

end Schematic
