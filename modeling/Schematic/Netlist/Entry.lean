import Schematic.Error
import Schematic.Netlist.Basic
import Schematic.Netlist.Token
import Schematic.Text.Decimal
import Schematic.Text.Lowercase

namespace Schematic.Netlist

open Text

/-!
# Entries

What one line of tokens declares.

* `Token.identifier`, `Token.constant`, `Token.operand` — the meaning of an argument;
* `Entry` — the meaning of a line;
* `Form.read` — a line of each form from its arguments;
* `Entry.read` — a line from its first token and its arguments.

An argument that names a direction, an operator, a kind of type or a width counts by its text, of
whatever kind the token is.
-/

namespace Token

/-- Refuses the token for a fault of the grammar. -/
def refuse {α : Type} (token : Token) (fault : GrammarFault) : Except Error α :=
  .error (.grammar token.line fault)

/-- The name that an identifier is. -/
def identifier (token : Token) : Except Error String :=
  if token.kind = .identifier then .ok token.text
  else token.refuse (.expectedIdentifier token.text)

/-- The constant that a number, a string or one of the words `true` and `false` stands for. -/
def constant (token : Token) : Except Error Constant :=
  match token.kind with
  | .number =>
    match readInt64? token.text with
    | some value => .ok (.int value)
    | none => token.refuse (.invalidInteger token.text)
  | .string => .ok (.string token.text)
  | .identifier =>
    if token.text = "true" then .ok (.bool true)
    else if token.text = "false" then .ok (.bool false)
    else token.refuse (.expectedConstant token.text)
  | _ => token.refuse (.expectedConstant token.text)

/-- The constant or the name of a node that the token stands for. -/
def operand (token : Token) : Except Error Operand :=
  match token.constant with
  | .ok value => .ok (.constant value)
  | .error _ => token.identifier.map .node

end Token

/-- What a line declares. -/
inductive Entry where
  | name (name : String)
  | type (decl : TypeDecl)
  | node (decl : NodeDecl)
  | connection (connection : Connection)
deriving DecidableEq, Repr

namespace Entry

/-- The name that a line gives to the design. -/
def name? : Entry → Option String
  | .name text => some text
  | _ => none

/-- The type that a line declares. -/
def type? : Entry → Option TypeDecl
  | .type decl => some decl
  | _ => none

/-- The node that a line declares. -/
def node? : Entry → Option NodeDecl
  | .node decl => some decl
  | _ => none

/-- The connection that a line makes. -/
def connection? : Entry → Option Connection
  | .connection made => some made
  | _ => none

end Entry

/-- What has been read, or the fault of its absence on the given line. -/
def orFault {α : Type} (line : Nat) (fault : GrammarFault) : Option α → Except Error α
  | some value => .ok value
  | none => .error (.grammar line fault)

/-- The width that a numeral stands for, from one to the greatest 32-bit word. -/
def readWidth? (text : String) : Option UInt32 :=
  (readInt64? text).bind fun width =>
    if 0 < width.toInt ∧ width.toInt.toNat < UInt32.size then
      some (UInt32.ofNat width.toInt.toNat)
    else none

namespace Form

/-- The name of the design. -/
def readGraph (line : Nat) : List Token → Except Error Entry
  | [name] => do return .name (← name.identifier)
  | _ => .error (.grammar line (.malformed .graph))

/-- A type with its kind, and for a vector its width. -/
def readType (line : Nat) : List Token → Except Error Entry
  | [name, kind] => do
    let shape ← orFault line (.unknownTypeKind kind.text) (Shape.ofKeyword? kind.text)
    return .type ⟨← name.identifier, shape, line⟩
  | [name, kind, width] => do
    if kind.text.toLower = "vector" then
      let width ← orFault line (.invalidWidth width.text) (readWidth? width.text)
      return .type ⟨← name.identifier, .vector width, line⟩
    else .error (.grammar line (.malformed .type))
  | _ => .error (.grammar line (.malformed .type))

/-- The part of a port that follows its name. -/
def readPortOf (line : Nat) (name : Option String) (direction typeName : Token) :
    Except Error Entry := do
  let direction ←
    orFault line (.unknownDirection direction.text) (Direction.ofKeyword? direction.text)
  return .node ⟨name, .port direction, ← typeName.identifier, line⟩

/-- A port, perhaps with a name. -/
def readPort (line : Nat) : List Token → Except Error Entry
  | [name, direction, typeName] => do readPortOf line (← name.identifier) direction typeName
  | [direction, typeName] => readPortOf line none direction typeName
  | _ => .error (.grammar line (.malformed .port))

/-- A signal, perhaps with a name. -/
def readSignal (line : Nat) : List Token → Except Error Entry
  | [name, typeName] => do
    let name ← name.identifier
    return .node ⟨name, .signal, ← typeName.identifier, line⟩
  | [typeName] => do return .node ⟨none, .signal, ← typeName.identifier, line⟩
  | _ => .error (.grammar line (.malformed .signal))

/-- The part of a parameter other than its default. -/
def readParamOf (line : Nat) (name typeName : Token) (default : Option Constant) :
    Except Error Entry := do
  let name ← name.identifier
  return .node ⟨name, .parameter default, ← typeName.identifier, line⟩

/-- A parameter, perhaps with a default, which is looked at first. -/
def readParam (line : Nat) : List Token → Except Error Entry
  | [name, typeName] => readParamOf line name typeName none
  | [name, typeName, value] => do readParamOf line name typeName (← value.constant)
  | _ => .error (.grammar line (.malformed .param))

/-- An expression, whose operator is looked at first. -/
def readExpr (line : Nat) : List Token → Except Error Entry
  | [name, op, lhs, rhs] => do
    let op ← orFault line (.unknownOperator op.text) (Operator.ofKeyword? op.text)
    let name ← name.identifier
    let lhs ← lhs.operand
    let rhs ← rhs.operand
    return .node ⟨name, .expression op lhs rhs, none, line⟩
  | _ => .error (.grammar line (.malformed .expr))

/-- A connection. -/
def readConnect (line : Nat) : List Token → Except Error Entry
  | [destination, source] => do
    let destination ← destination.identifier
    return .connection ⟨destination, ← source.operand, line⟩
  | _ => .error (.grammar line (.malformed .connect))

/-- A line of the given form and number, from its arguments. -/
def read : Form → Nat → List Token → Except Error Entry
  | .graph => readGraph
  | .type => readType
  | .port => readPort
  | .signal => readSignal
  | .param => readParam
  | .expr => readExpr
  | .connect => readConnect

end Form

namespace Entry

/-- Whether a line can begin with a token of this kind. -/
def canBegin : TokenKind → Bool
  | .directive | .identifier => true
  | _ => false

/-- The form that the first token of a line announces, in any mixture of upper and lower case. -/
def form (head : Token) : Except Error Form :=
  let word := lowercase head.text
  match head.kind with
  | .directive => orFault head.line (.unknownDirective head.text) (Form.ofDirective? word)
  | .identifier => orFault head.line (.unknownStatement word) (Form.ofKeyword? word)
  | _ => head.refuse (.misplacedToken head.text)

/-- What a line declares, from its first token and its arguments. -/
def read (head : Token) (arguments : List Token) : Except Error Entry := do
  (← form head).read head.line arguments

end Entry

end Schematic.Netlist
