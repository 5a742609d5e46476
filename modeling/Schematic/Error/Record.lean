import Schematic.Error

namespace Schematic

open Text

/-!
# Errors as records

The exact form in which the command line reports an error: the name of its kind, then its parts by
name.

* `Error.kind` — the name of the kind;
* `Error.fields` — the parts, each with its written value;
* `Error.record` — the whole, on one line.
-/

/-- The written form of a record: its name, then its parts between braces. -/
def recordText (name : String) (fields : List (String × String)) : String :=
  name ++ " \x7b " ++ ", ".intercalate (fields.map fun field => field.1 ++ ": " ++ field.2)
    ++ " \x7d"

/-- The written form of a kind of constant in a record. -/
def Storage.recordName : Storage → String
  | .bool => "Bool"
  | .int => "Int"
  | .string => "String"

/-- A fault that the operating system reports, as a record. -/
def systemRecord (code kind message : String) : String :=
  recordText "Os" [("code", code), ("kind", kind), ("message", quoted message)]

/-- A fault that is found without the operating system, as a record. -/
def plainRecord (kind message : String) : String :=
  recordText "Error" [("kind", kind), ("message", quoted message)]

/-- A file fault as a record. -/
def FileFault.record : FileFault → String
  | .notFound => systemRecord "2" "NotFound" "No such file or directory"
  | .permissionDenied => systemRecord "13" "PermissionDenied" "Permission denied"
  | .notDirectory => systemRecord "20" "NotADirectory" "Not a directory"
  | .isDirectory => systemRecord "21" "IsADirectory" "Is a directory"
  | .nameTooLong => systemRecord "36" "InvalidFilename" "File name too long"
  | .nulInPath => plainRecord "InvalidInput" (FileFault.message .nulInPath)
  | .notText => plainRecord "InvalidData" (FileFault.message .notText)

namespace Error

/-- The name of the kind of error. -/
def kind : Error → String
  | .lexical .. => "LexerError"
  | .grammar .. => "ParseError"
  | .unknownType .. => "UnknownType"
  | .duplicateType .. => "DuplicateType"
  | .duplicateNode .. => "DuplicateNode"
  | .nodeNotFound .. => "NodeNotFound"
  | .invalidNodeId .. => "InvalidNodeId"
  | .edgeNotFound .. => "EdgeNotFound"
  | .cannotDriveLiteral .. => "CannotDriveLiteral"
  | .tagMismatch .. => "NodeKindMismatch"
  | .storageMismatch .. => "LiteralKindMismatch"
  | .alreadyDriven .. => "InputAlreadyDriven"
  | .asymmetricEdge .. => "AsymmetricEdge"
  | .unresolvedParameter .. => "UnresolvedParameter"
  | .unreadableFile .. => "FileReadError"

/-- The parts of an error in order, each with its written value. -/
def fields : Error → List (String × String)
  | .lexical position fault =>
    [("line", toString position.line), ("column", toString position.column),
      ("message", quoted fault.message)]
  | .grammar line fault => [("line", toString line), ("message", quoted fault.message)]
  | .unknownType name line => [("name", quoted name), ("line", toString line)]
  | .duplicateType name => [("name", quoted name)]
  | .duplicateNode name => [("name", quoted name)]
  | .nodeNotFound name => [("node", quoted name)]
  | .invalidNodeId id => [("id", "NodeId(" ++ toString id ++ ")")]
  | .edgeNotFound id => [("edge", "EdgeId(" ++ toString id ++ ")")]
  | .cannotDriveLiteral name => [("name", quoted name)]
  | .tagMismatch node expected actual =>
    [("node", quoted node), ("expected", expected.name), ("actual", actual.name)]
  | .storageMismatch expected actual =>
    [("expected", expected.recordName), ("actual", actual.recordName)]
  | .alreadyDriven node edge => [("node", quoted node), ("edge", quoted edge)]
  | .asymmetricEdge edge fault => [("edge", quoted edge), ("message", quoted fault.message)]
  | .unresolvedParameter name => [("name", quoted name)]
  | .unreadableFile path fault => [("path", quoted path), ("source", fault.record)]

/-- The error on one line. -/
def record (error : Error) : String := recordText error.kind error.fields

end Error

end Schematic
