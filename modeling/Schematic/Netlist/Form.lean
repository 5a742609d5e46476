namespace Schematic.Netlist

/-!
# Forms of lines

A line of a netlist is a directive or a statement, told by its first word.

* `Form` — the forms there are;
* `Form.ofDirective?`, `Form.ofKeyword?` — the form that a first word announces;
* `Form.keyword`, `Form.usage` — how a form is written.
-/

/-- The forms of a line. -/
inductive Form where
  /-- The name of the design. -/
  | graph
  /-- The declaration of a type. -/
  | type
  /-- The declaration of a port. -/
  | port
  /-- The declaration of a signal. -/
  | signal
  /-- The declaration of a parameter. -/
  | param
  /-- The declaration of an expression. -/
  | expr
  /-- A connection of two nodes. -/
  | connect
deriving DecidableEq, Repr

namespace Form

/-- The form that a directive in lower case announces. -/
def ofDirective? : String → Option Form
  | ".graph" => some .graph
  | ".type" => some .type
  | _ => none

/-- The form that a keyword in lower case announces. -/
def ofKeyword? : String → Option Form
  | "port" => some .port
  | "signal" => some .signal
  | "param" | "parameter" => some .param
  | "expr" => some .expr
  | "connect" => some .connect
  | _ => none

/-- The word that announces the form. -/
def keyword : Form → String
  | .graph => ".graph"
  | .type => ".type"
  | .port => "port"
  | .signal => "signal"
  | .param => "param"
  | .expr => "expr"
  | .connect => "connect"

/-- The form with its arguments. -/
def usage : Form → String
  | .graph => ".graph <name>"
  | .type => ".type <name> <kind> [width]"
  | .port => "port [name] <dir> <type>"
  | .signal => "signal [name] <type>"
  | .param => "param <name> <type> [default]"
  | .expr => "expr <name> <op> <lhs> <rhs>"
  | .connect => "connect <destination> <source>"

end Form

end Schematic.Netlist
