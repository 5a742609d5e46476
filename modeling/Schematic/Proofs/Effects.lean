import Schematic.Proofs.Literals

namespace Schematic

/-!
# Effects of commands

A command is refused and changes nothing, or it has one of eight effects and gives the reply that
belongs to it. What a command can do is said here once, with all that holds before it.

* `Origin`, `Command.origin?` — how the node comes into being that a command makes;
* `Command.joined?` — the nodes that a command joins;
* `Design.Effect` — the effects;
* `Session.perform_cases`, `Session.effect_of_reply` — every command has one of them or none;
* `Effect.reaches` — an effect consists of single changes.

There are fewer effects than commands: seven commands make a node with a chosen name, and three
others join two nodes. An effect records what has been checked for it, so that a proof about a
command that has succeeded goes by cases on the effect and finds in each case what it needs. The
single changes of a command follow from its effect, and with them all that single changes keep.
-/

/-- How a node comes into being. -/
inductive Origin where
  /-- It is made, with a name of the given kind. -/
  | made (naming : Naming)
  /-- It is the copy of another node. -/
  | copied
deriving DecidableEq, Repr

namespace Command

/-- How the node comes into being that the command makes, if it is one that can make a node. -/
def origin? : Command → Option Origin
  | .port .. | .portOfType .. | .signal .. | .signalOfType .. | .parameter .. | .literal ..
  | .namedExpression .. => some (.made .declared)
  | .literalOfString .. | .intLiteral _ | .stringLiteral _ | .boolLiteral _ | .expression .. =>
    some (.made .derived)
  | .copy _ => some .copied
  | .defineType .. | .flipPort _ | .connect .. | .addSink .. | .addSource .. | .disconnect _ => none

/-- The destination and the source of the edge that the command makes, if it is one that can make
    an edge. -/
def joined? : Command → Option (NodeId × NodeId)
  | .connect destination source => some (destination, source)
  | .addSink id sink => some (sink, id)
  | .addSource id source => some (id, source)
  | _ => none

end Command

namespace Design

/-- What a command does to the design that does not refuse it, and what it gives back. -/
inductive Effect (design : Design) : Command → Reply → Design → Prop
  /-- A type is declared. -/
  | defined {name : String} {shape : Shape} {type : DataType} {types : TypeTable}
      (h : design.types.define name shape = .ok (type, types)) :
      Effect design (.defineType name shape) (.type type) { design with types }
  /-- A node is made. -/
  | made {command : Command} {naming : Naming} {node : Node}
      (ho : command.origin? = some (.made naming)) (h : design.Admits node) :
      Effect design command (.node design.nodeCount) (design.insert naming node)
  /-- The literal of a truth value is made and noted. -/
  | noted {value : Bool} (h : design.shared? value = none) :
      Effect design (.boolLiteral value) (.node design.nodeCount)
        ((design.insert .derived (Constant.bool value).literal).share value design.nodeCount)
  /-- The literal of a truth value is the one that has been noted. -/
  | shared {value : Bool} {id : NodeId} (h : design.shared? value = some id) :
      Effect design (.boolLiteral value) (.node id) design
  /-- A node is copied. -/
  | copied {id : NodeId} {template : Node} (hn : design.node? id = some template) :
      Effect design (.copy id) (.node design.nodeCount) (design.insertUnnamed template.detached)
  /-- A port is turned around. -/
  | turned {id : NodeId} {node : Node} {direction : Direction} (hn : design.node? id = some node)
      (hr : node.role? = some (.port direction)) :
      Effect design (.flipPort id) (.direction direction.flip)
        (design.updateNode id (.withRole (.port direction.flip)))
  /-- A node gets a driver, perhaps in place of another one. -/
  | connected {command : Command} {destination source : NodeId} {driver driven : Node}
      (hj : command.joined? = some (destination, source))
      (hs : design.node? source = some driver) (hd : design.node? destination = some driven)
      (hl : driven.isLiteral = false)
      (hp : design.policy.replacement = .detach ∨ driven.input = none) :
      Effect design command (.edge design.edgeTable.size)
        (design.withDriver destination source driver driven)
  /-- An edge is removed. -/
  | disconnected {id : EdgeId} {edge : Edge} (h : design.edge? id = some edge) :
      Effect design (.disconnect id) .done (design.unlink id edge)

variable {design next : Design} {command : Command} {reply : Reply}

/-- An effect consists of single changes. Most are one change, and a truth value that is already
    there is none. -/
theorem Effect.reaches (h : design.Effect command reply next) (hw : design.Wired) :
    design.Reaches next := by
  cases h with
  | @defined name shape _ _ h => exact .single (.define name shape h)
  | @made _ naming _ _ h => exact .single (.insert naming h)
  | noted h => exact .share h
  | shared => exact .refl
  | copied hn => exact .single (.copy hn)
  | turned hn hr => exact .single (.turn hn hr)
  | connected _ hs hd hl => exact .withDriver hw hs hd hl
  | disconnected h => exact .single (.unlink h)

end Design

namespace Session

open Design

variable {α : Type} {session : Session} {command : Command} {reply : Reply}

/-- The edit is refused and changes nothing, or it does what the command is there for. -/
def Settles (session : Session) (command : Command) (edit : Edit Reply) : Prop :=
  (∃ error, session.perform edit = (.error error, session)) ∨
    ∃ reply next, session.perform edit = (.ok reply, next) ∧
      session.design.Effect command reply next.design

namespace Settles

variable {edit : Edit α} {f : α → Reply}

/-- An edit that has failed without a change to the session has been refused. -/
theorem refused {error : Error} (h : session.perform edit = (.error error, session)) :
    session.Settles command (f <$> edit) :=
  .inl ⟨error, by rw [perform_map, h]; rfl⟩

/-- An edit that has succeeded has done what the command is there for, if the design behind it is
    what an effect says. -/
theorem done {value : α} {next : Session} (h : session.perform edit = (.ok value, next))
    (heffect : session.design.Effect command (f value) next.design) :
    session.Settles command (f <$> edit) :=
  .inr ⟨f value, next, by rw [perform_map, h]; rfl, heffect⟩

/-- A node is made that the design has everything for. -/
theorem made {edit : Edit NodeId} {naming : Naming} {node : Node}
    (h : session.perform edit = (.ok session.design.nodeCount, session.inserted naming node))
    (ho : command.origin? = some (.made naming)) (hadmits : session.design.Admits node) :
    session.Settles command (Reply.node <$> edit) := by
  have heffect : session.design.Effect command (.node session.design.nodeCount)
      (session.design.insert naming node) := .made ho hadmits
  exact done h heffect

/-- Connecting is refused, or it gives a node a new driver. The three commands that connect differ
    in which node they name first. -/
theorem connect {destination source : NodeId} (hw : session.design.Wired)
    (hj : command.joined? = some (destination, source)) :
    session.Settles command (Reply.edge <$> Edit.connect destination source) := by
  rcases perform_connect_cases hw destination source with
    ⟨error, -, h⟩ | ⟨-, driver, driven, journal, hs, hd, hl, hp, h⟩
  · exact refused h
  · exact done h (.connected hj hs hd hl hp)

end Settles

/-- A command is refused and changes nothing, or it has its effect. So what is said of all commands
    in terms of designs can be proved for the effects. -/
theorem perform_cases (hw : session.design.Wired) (command : Command) :
    session.Settles command command.run := by
  -- One case for each command, by what its edit comes to. Commands that make a node, and commands
  -- that join two nodes, are taken together.
  cases command
  case defineType name shape =>
    cases hdef : session.design.types.define name shape with
    | error error => exact .refused (by rw [perform_defineType, hdef])
    | ok defined =>
      obtain ⟨type, types⟩ := defined
      have heffect : session.design.Effect (.defineType name shape) (.type type)
          { session.design with types } := .defined hdef
      exact .done (by rw [perform_defineType, hdef]) heffect
  case port | portOfType | signal | signalOfType =>
    exact .made (perform_insert ..) rfl ⟨rfl, trivial⟩
  case literal | literalOfString | intLiteral | stringLiteral =>
    exact .made (perform_insert ..) rfl (.ofConstant ..)
  case parameter name type default =>
    rcases perform_parameter session name type default with ⟨hadmits, h⟩ | ⟨-, error, h⟩
    · exact .made h rfl hadmits
    · exact .refused h
  case boolLiteral value =>
    cases hs : session.design.shared? value with
    | none => exact .done (by rw [perform_boolLiteral, hs]) (.noted hs)
    | some id => exact .done (by rw [perform_boolLiteral, hs]) (.shared hs)
  case expression op lhs rhs =>
    have h := perform_expression session op lhs rhs
    split at h
    case h_1 hl hr => exact .made h rfl (admits_expression hl hr rfl)
    all_goals exact .refused h
  case namedExpression name op lhs rhs =>
    have h := perform_namedExpression session name op lhs rhs
    split at h
    case h_1 hl hr => exact .made h rfl (admits_expression hl hr rfl)
    all_goals exact .refused h
  case copy id =>
    have h := perform_copy session id
    split at h
    case h_1 hn => exact .done h (.copied hn)
    case h_2 => exact .refused h
  case flipPort id =>
    have h := perform_flipPort session id
    split at h
    · exact .refused h
    case h_2 hn =>
      split at h
      case h_1 hr => exact .done h (.turned hn hr)
      case h_2 => exact .refused h
  case connect | addSink | addSource => exact .connect hw rfl
  case disconnect id =>
    have h := perform_disconnect session id
    split at h
    · exact .refused h
    case h_2 edge hedge => exact .done h (.disconnected hedge)

/-- What a command has done that has given a reply. A command that fails gives none, so that a reply
    is always that of an effect. -/
theorem effect_of_reply (hw : session.design.Wired)
    (h : (session.perform command.run).1 = .ok reply) :
    session.design.Effect command reply (session.step command).design := by
  rcases perform_cases hw command with ⟨error, hp⟩ | ⟨other, next, hp, heffect⟩
  · rw [hp] at h
    exact absurd h (by simp)
  · rw [hp] at h
    obtain rfl := Except.ok.inj h
    rwa [step, hp]

/-- A command leaves the design as it is, or gives a reply and has its effect. -/
theorem step_cases (hw : session.design.Wired) (command : Command) :
    (session.step command).design = session.design ∨
      ∃ reply, (session.perform command.run).1 = .ok reply ∧
        session.design.Effect command reply (session.step command).design := by
  rcases perform_cases hw command with ⟨error, hp⟩ | ⟨reply, next, hp, heffect⟩
  · exact .inl (by rw [step, hp])
  · exact .inr ⟨reply, by rw [hp], by rwa [step, hp]⟩

end Session

end Schematic
