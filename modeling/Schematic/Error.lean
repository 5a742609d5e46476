import Schematic.Constant
import Schematic.Edge
import Schematic.Netlist.Fault
import Schematic.Tag

namespace Schematic

open Text

/-!
# Errors

Everything that can go wrong between the file of a netlist and a checked design, by cause.

* `WiringFault` — the edge table and a node disagree about an edge;
* `FileFault` — a file cannot be read;
* `Error` — one of these, a fault in the text of a netlist, or a cause of its own;
* `Error.message` — the wording.
-/

/-- How a node and the edge table can disagree about an edge. -/
inductive WiringFault where
  /-- The edge has the node as its source and is not among the node's outputs. -/
  | missingOutput (node : String)
  /-- The edge has the node as its destination and is not the node's input. -/
  | missingInput (node : String)
  /-- The edge is among the node's outputs and does not have it as its source. -/
  | staleOutput (node : String)
  /-- The edge is the node's input and does not have it as its destination. -/
  | staleInput (node : String)
deriving DecidableEq, Repr

/-- The wording of a wiring fault. -/
def WiringFault.message : WiringFault → String
  | .missingOutput node => "missing from outputs of '" ++ node ++ "'"
  | .missingInput node => "not the input of '" ++ node ++ "'"
  | .staleOutput node => "stale output of '" ++ node ++ "'"
  | .staleInput node => "stale input of '" ++ node ++ "'"

/-- Why a file cannot be read. -/
inductive FileFault where
  | notFound
  | permissionDenied
  /-- The path goes on behind something that is no directory. -/
  | notDirectory
  | isDirectory
  /-- The path, or one of the names in it, is longer than the system takes. -/
  | nameTooLong
  /-- The path holds the character that ends a path. -/
  | nulInPath
  /-- The bytes of the file are no UTF-8 text. -/
  | notText
deriving DecidableEq, Repr

/-- The wording of a file fault. -/
def FileFault.message : FileFault → String
  | .notFound => "No such file or directory (os error 2)"
  | .permissionDenied => "Permission denied (os error 13)"
  | .notDirectory => "Not a directory (os error 20)"
  | .isDirectory => "Is a directory (os error 21)"
  | .nameTooLong => "File name too long (os error 36)"
  | .nulInPath => "file name contained an unexpected NUL byte"
  | .notText => "stream did not contain valid UTF-8"

/-- The causes of failure. -/
inductive Error where
  /-- A lexical fault at a place of the netlist. -/
  | lexical (position : Position) (fault : Netlist.LexicalFault)
  /-- A grammar fault on a line of the netlist. -/
  | grammar (line : Nat) (fault : Netlist.GrammarFault)
  /-- A declaration refers to a type that does not exist. -/
  | unknownType (name : String) (line : Nat)
  /-- A type has the name of an earlier one. -/
  | duplicateType (name : String)
  /-- A declared node has the name of an earlier one. -/
  | duplicateNode (name : String)
  /-- No node has been declared under the name. -/
  | nodeNotFound (name : String)
  /-- The design has no node in this place. -/
  | invalidNodeId (id : NodeId)
  /-- The design has no edge in this place, or no longer. -/
  | edgeNotFound (id : EdgeId)
  /-- A literal would become the destination of an edge. -/
  | cannotDriveLiteral (name : String)
  /-- A node is not of the variant that is asked for. -/
  | tagMismatch (node : String) (expected actual : Tag)
  /-- A constant is not of the kind that is asked for. -/
  | storageMismatch (expected actual : Storage)
  /-- A node would get a second driver. -/
  | alreadyDriven (node edge : String)
  /-- The edge table and a node disagree about an edge. -/
  | asymmetricEdge (edge : String) (fault : WiringFault)
  /-- A parameter has no value. -/
  | unresolvedParameter (name : String)
  /-- The file of a netlist cannot be read. -/
  | unreadableFile (path : String) (fault : FileFault)
deriving DecidableEq, Repr

/-- The wording of an error. -/
def Error.message : Error → String
  | .lexical position fault =>
    s!"Lexer error at line {position.line}, column {position.column}: " ++ fault.message
  | .grammar line fault => s!"Parse error at line {line}: " ++ fault.message
  | .unknownType name line => s!"Unknown type '{name}' at line {line}"
  | .duplicateType name => s!"Duplicate type name '{name}'"
  | .duplicateNode name => s!"Duplicate node name '{name}'"
  | .nodeNotFound name => s!"Node '{name}' not found in graph"
  | .invalidNodeId id => s!"Node id {id.label} is not part of this graph"
  | .edgeNotFound id => s!"Edge {id.label} is not connected"
  | .cannotDriveLiteral name => s!"Cannot drive literal node '{name}'"
  | .tagMismatch node expected actual =>
    s!"Node '{node}' is a {actual.name}, not a {expected.name}"
  | .storageMismatch expected actual =>
    s!"Literal holds a {actual.name} value, not a {expected.name} value"
  | .alreadyDriven node edge => s!"Node '{node}' is already driven by edge '{edge}'"
  | .asymmetricEdge edge fault =>
    s!"Edge '{edge}' is not registered symmetrically: " ++ fault.message
  | .unresolvedParameter name => s!"Parameter '{name}' has no driver and no default value"
  | .unreadableFile path fault => s!"Failed to read netlist file '{path}': " ++ fault.message

end Schematic
