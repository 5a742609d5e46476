import Schematic.Design.Check
import Schematic.Design.Listing
import Schematic.Error.Record
import Schematic.Netlist.Build
import Schematic.Netlist.Parser

namespace Schematic

/-!
# The command line

The command reads the file of a netlist, builds and checks its design, and lists the nodes.

* `Options`, `Options.ofArguments` — what the arguments ask for;
* `Outcome` — what the command leaves behind;
* `Options.execute` — the outcome for the contents of the file.
-/

/-- What the arguments ask for. -/
structure Options where
  /-- The path of the netlist. -/
  path : String
  /-- Whether second drivers and unresolved parameters are refused. -/
  strict : Bool
  /-- Whether the listing is left out. -/
  quiet : Bool
deriving DecidableEq, Repr

/-- What can be wrong with the arguments. -/
inductive UsageFault where
  | missingFile
  | unexpected (argument : String)
  | repeated (option : String)
deriving DecidableEq, Repr

/-- The wording of a usage fault. -/
def UsageFault.message : UsageFault → String
  | .missingFile => "error: a netlist file is required"
  | .unexpected argument => "error: unexpected argument '" ++ argument ++ "'"
  | .repeated option => "error: the option '" ++ option ++ "' is given twice"

/-- What the arguments read so far ask for. -/
structure ArgumentState where
  /-- The path, once there is one. -/
  path : Option String := none
  /-- Whether the strict mode is asked for. -/
  strict : Bool := false
  /-- Whether the quiet mode is asked for. -/
  quiet : Bool := false
  /-- Whether everything that follows is a path. -/
  optionsEnded : Bool := false

namespace ArgumentState

/-- Takes the path, which can be given once. -/
def takePath (state : ArgumentState) (argument : String) : Except UsageFault ArgumentState :=
  match state.path with
  | none => .ok { state with path := argument }
  | some _ => .error (.unexpected argument)

/-- Takes one argument. -/
def take (state : ArgumentState) (argument : String) : Except UsageFault ArgumentState :=
  if state.optionsEnded ∨ ¬ argument.startsWith "-" ∨ argument = "-" then state.takePath argument
  else if argument = "--" then .ok { state with optionsEnded := true }
  else if argument = "--strict" then
    if state.strict then .error (.repeated argument) else .ok { state with strict := true }
  else if argument = "--quiet" ∨ argument = "-q" then
    if state.quiet then .error (.repeated argument) else .ok { state with quiet := true }
  else .error (.unexpected argument)

end ArgumentState

/-- What a command leaves behind. -/
structure Outcome where
  /-- The exit code. -/
  exitCode : UInt32
  /-- The text on standard output. -/
  output : String
  /-- The text on standard error. -/
  errors : String
deriving DecidableEq, Repr

namespace Options

/-- What the arguments ask for, in any order. -/
def ofArguments (arguments : List String) : Except UsageFault Options := do
  let state ← arguments.foldlM ArgumentState.take {}
  match state.path with
  | none => .error .missingFile
  | some path => .ok ⟨path, state.strict, state.quiet⟩

/-- The policy of the mode. -/
def policy (options : Options) : Policy :=
  if options.strict then .strict else .lenient

/-- The checked design of a netlist, from what reading its file gave. -/
def design (options : Options) (contents : Except FileFault ByteArray) : Except Error Design := do
  let netlist ← Netlist.ofFile options.path contents
  let design ← netlist.toDesign options.policy
  let _ ← design.validate
  return design

/-- What the command leaves behind, from what reading the file gave. -/
def execute (options : Options) (contents : Except FileFault ByteArray) : Outcome :=
  match options.design contents with
  | .ok design =>
    let lines := if options.quiet then [] else design.listing
    ⟨0, String.join (lines.map (· ++ "\n")), ""⟩
  | .error error => ⟨1, "", "Error: " ++ error.record ++ "\n"⟩

end Options

end Schematic
