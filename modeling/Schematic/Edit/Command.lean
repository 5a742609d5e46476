import Schematic.Edit.Nodes
import Schematic.Edit.Wiring

namespace Schematic

/-!
# Commands

The edits by which a design grows, as data.

* `Command` — the edits;
* `Command.run` — what each does;
* `Reply` — what it gives back.
-/

/-- An edit that makes a part of a design or changes its wiring. -/
inductive Command where
  | defineType (name : String) (shape : Shape)
  | port (name : String) (type : DataType) (direction : Direction)
  | portOfType (type : DataType) (direction : Direction)
  | signal (name : String) (type : DataType)
  | signalOfType (type : DataType)
  | parameter (name : String) (type : DataType) (default : Option NodeId)
  | literal (name : String) (type : DataType) (value : Constant)
  | literalOfString (type : DataType) (value : String)
  | intLiteral (value : Int64)
  | stringLiteral (value : String)
  | boolLiteral (value : Bool)
  | expression (op : Operator) (lhs rhs : NodeId)
  | namedExpression (name : String) (op : Operator) (lhs rhs : NodeId)
  | copy (id : NodeId)
  | flipPort (id : NodeId)
  | connect (destination source : NodeId)
  /-- Makes `id` drive `sink`. -/
  | addSink (id sink : NodeId)
  /-- Makes `source` drive `id`. -/
  | addSource (id source : NodeId)
  | disconnect (id : EdgeId)
deriving DecidableEq, Repr

/-- What a command gives back. -/
inductive Reply where
  | type (type : DataType)
  | node (id : NodeId)
  | direction (direction : Direction)
  | edge (id : EdgeId)
  | done
deriving DecidableEq, Repr

namespace Command

/-- Does what the command says. -/
def run : Command → Edit Reply
  | .defineType name shape => .type <$> Edit.defineType name shape
  | .port name type direction => .node <$> Edit.port name type direction
  | .portOfType type direction => .node <$> Edit.portOfType type direction
  | .signal name type => .node <$> Edit.signal name type
  | .signalOfType type => .node <$> Edit.signalOfType type
  | .parameter name type default => .node <$> Edit.parameter name type default
  | .literal name type value => .node <$> Edit.literal name type value
  | .literalOfString type value => .node <$> Edit.literalOfString type value
  | .intLiteral value => .node <$> Edit.intLiteral value
  | .stringLiteral value => .node <$> Edit.stringLiteral value
  | .boolLiteral value => .node <$> Edit.boolLiteral value
  | .expression op lhs rhs => .node <$> Edit.expression op lhs rhs
  | .namedExpression name op lhs rhs => .node <$> Edit.namedExpression name op lhs rhs
  | .copy id => .node <$> Edit.copy id
  | .flipPort id => .direction <$> Edit.flipPort id
  | .connect destination source => .edge <$> Edit.connect destination source
  | .addSink id sink => .edge <$> Edit.connect sink id
  | .addSource id source => .edge <$> Edit.connect id source
  | .disconnect id => (fun _ => .done) <$> Edit.disconnect id

end Command

/-- The session behind a command, whether it fails or not. -/
def Session.step (session : Session) (command : Command) : Session :=
  (session.perform command.run).2

/-- The session behind some commands, each tried whether those before it fail or not. -/
def Session.run (session : Session) (commands : List Command) : Session :=
  commands.foldl step session

end Schematic
