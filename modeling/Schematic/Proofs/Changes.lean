import Mathlib.Logic.Relation
import Schematic.Edit.Command
import Schematic.Proofs.NodeEdits
import Schematic.Proofs.Rewiring

namespace Schematic

/-!
# Single changes and runs

Whatever an edit does to a wired design, it does in single changes of seven kinds, and it has made
sure of what each of them needs.

* `Design.Change` — the single changes, with what holds before each of them;
* `Change.wired` — none of them harms the wiring, so that no sequence of them does;
* `Change.policy_eq` — none of them changes the policy;
* `Session.reaches_perform` — every command consists of single changes;
* `Session.wiring_of_run` — after any run of commands from an empty design, the edge table and the
  pins of all nodes agree.

A command has many ways to end, and a property that every run keeps would have to be checked for
each of them. Instead, each command is taken apart once into the single changes that it makes, each
with the facts that have been checked at that point. What a run keeps is then a matter of seven
cases, and a proof by induction on the sequence of changes; the modules that follow prove their
invariants in this way and do not look at the commands again.
-/

namespace Design

/-- A single change to a design. -/
inductive Change : Design → Design → Prop
  /-- A type is declared. -/
  | define {design : Design} {type : DataType} {types : TypeTable} (name : String) (shape : Shape)
      (h : design.types.define name shape = .ok (type, types)) : Change design { design with types }
  /-- A node is made. -/
  | insert {design : Design} {node : Node} (naming : Naming) (h : design.Admits node) :
      Change design (design.insert naming node)
  /-- The literal of a truth value is noted for further uses. -/
  | share {design : Design} {node : Node} {value : Bool} {id : NodeId}
      (hnone : design.shared? value = none) (hn : design.node? id = some node)
      (hv : node.value? = some (.bool value)) : Change design (design.share value id)
  /-- A node is copied. -/
  | copy {design : Design} {template : Node} {id : NodeId} (hn : design.node? id = some template) :
      Change design (design.insertUnnamed template.detached)
  /-- A port is turned around. -/
  | turn {design : Design} {node : Node} {id : NodeId} {direction : Direction}
      (hn : design.node? id = some node) (hr : node.role? = some (.port direction)) :
      Change design (design.updateNode id (.withRole (.port direction.flip)))
  /-- A connected edge is removed. -/
  | unlink {design : Design} {edge : Edge} {place : EdgeId} (h : design.edge? place = some edge) :
      Change design (design.unlink place edge)
  /-- A node without a driver gets one. -/
  | link {design : Design} {source destination : NodeId} {driver driven : Node}
      (hs : design.node? source = some driver) (hd : design.node? destination = some driven)
      (hl : driven.isLiteral = false) (hi : driven.input = none) :
      Change design
        (design.link (design.nextEdge source destination driver.name driven.name) source
          destination)

/-- One design comes from another by single changes. -/
abbrev Reaches : Design → Design → Prop := Relation.ReflTransGen Change

variable {design next : Design}

/-- No single change harms the wiring, given what has been made sure of before it: that a new
    node has no edges, that a removed edge is there, and that a new one leads to a node without
    a driver. -/
theorem Change.wired (h : Change design next) (hw : design.Wired) : next.Wired := by
  cases h with
  | define => exact hw.congr rfl rfl
  | insert naming h => exact hw.insert naming h.1
  | share => exact hw.share _ _
  | copy => exact hw.insertUnnamed (Node.detached_detached _)
  | @turn node id direction hn hr =>
    -- A node with the role of a port has pins, and these stay.
    obtain ⟨_, _, _ | ⟨role, pins⟩⟩ := node
    · exact absurd hr (by simp [Node.role?])
    · obtain rfl : role = .port direction := Option.some.inj hr
      exact hw.updateNode rfl rfl rfl rfl hn
  | unlink h => exact hw.unlink h
  | link hs hd hl hi => exact hw.link rfl rfl rfl hs hd hl hi rfl

/-- No sequence of single changes harms the wiring. -/
theorem Reaches.wired (h : design.Reaches next) (hw : design.Wired) : next.Wired := by
  induction h with
  | refl => exact hw
  | tail _ hchange ih => exact hchange.wired ih

/-- No change is one of policy. -/
theorem Change.policy_eq (h : Change design next) : next.policy = design.policy := by
  cases h with
  | insert naming => cases naming <;> rfl
  | @share node value => cases value <;> rfl
  | unlink => exact (Rewires.unlink ..).policy
  | define | copy | turn | link => rfl

/-- The policy of a design is the one that it was started with, whatever changes there have been. -/
theorem Reaches.policy_eq (h : design.Reaches next) : next.policy = design.policy := by
  induction h with
  | refl => rfl
  | tail _ hchange ih => exact hchange.policy_eq.trans ih

/-- Giving a node a driver takes at most one removal, and then one new edge. In between, the node is
    without a driver, which is what the new edge asks for. -/
theorem Reaches.withDriver {source destination : NodeId} {driver driven : Node}
    (hw : design.Wired) (hs : design.node? source = some driver)
    (hd : design.node? destination = some driven) (hl : driven.isLiteral = false) :
    design.Reaches (design.withDriver destination source driver driven) := by
  have hfreed : design.Reaches (design.withoutDriver destination) := by
    rcases withoutDriver_cases design destination with h | ⟨place, edge, hedge, h⟩ <;> rw [h]
    exact .single (.unlink hedge)
  have hext := Extends.withoutDriver design destination
  obtain ⟨driver', hs', hname, -⟩ := hext.keep hs
  obtain ⟨driven', hd', hname', hl'⟩ := hext.keep hd
  refine hfreed.tail ?_
  -- The new edge is named after nodes that have kept their names.
  rw [Design.withDriver, ← hname, ← hname']
  exact .link hs' hd' (hl'.trans hl) (hw.input_withoutDriver hd hd')

/-- The literal of a truth value is made and noted. In between, it is there without being noted, as
    any other literal is. -/
theorem Reaches.share {value : Bool} {name : String} (hnone : design.shared? value = none) :
    design.Reaches ((design.insert .derived (.ofConstant name .boolean (.bool value))).share value
      design.nodeCount) := by
  have hn : (design.insert .derived (.ofConstant name .boolean (.bool value))).node?
      design.nodeCount = some (.ofConstant name .boolean (.bool value)) := by
    rw [node?_insert, if_pos rfl]
  have hnone' : (design.insert .derived (.ofConstant name .boolean (.bool value))).shared? value =
      none := by
    cases value <;> exact hnone
  exact .tail (.single (.insert .derived (.ofConstant ..))) (.share hnone' hn rfl)

end Design

namespace Session

open Design

variable {session : Session}

/-! ### Commands -/

/-- A session with a new node is one change further. -/
theorem reaches_inserted {naming : Naming} {node : Node} (h : session.design.Admits node) :
    session.design.Reaches (session.inserted naming node).design :=
  .single (.insert naming h)

/-- Connecting is refused, or it gives a node a new driver. In single changes this is nothing at
    all, or a removal at most and a new edge. -/
theorem reaches_perform_connect (hw : session.design.Wired) (destination source : NodeId) :
    session.design.Reaches (session.perform (Edit.connect destination source)).2.design := by
  rcases perform_connect_cases hw destination source with
    ⟨error, -, h⟩ | ⟨-, driver, driven, journal, hs, hd, hl, -, h⟩
  · rw [h]
  · rw [h]
    exact .withDriver hw hs hd hl

/-- Disconnecting is refused, or it removes one connected edge. -/
theorem reaches_perform_disconnect (session : Session) (id : EdgeId) :
    session.design.Reaches (session.perform (Edit.disconnect id)).2.design := by
  rw [perform_disconnect]
  cases hedge : session.design.edge? id with
  | none => exact .refl
  | some edge => exact .single (.unlink hedge)

/-- A command does what it does in single changes. So whatever every single change preserves is
    preserved by all commands, those that fail included. -/
theorem reaches_perform (hw : session.design.Wired) (command : Command) :
    session.design.Reaches (session.perform command.run).2.design := by
  -- One case for each command: a refusal is no change at all, and a success is one change, or two
  -- for a truth value and for a new driver.
  cases command <;> simp only [Command.run, perform_map]
  case defineType name shape =>
    rw [perform_defineType]
    split
    · exact .refl
    case h_2 hdef => exact .single (.define name shape hdef)
  case port | portOfType | signal | signalOfType =>
    exact reaches_inserted ⟨rfl, trivial⟩
  case literal | literalOfString | intLiteral | stringLiteral =>
    exact reaches_inserted (.ofConstant ..)
  case parameter name type default =>
    rcases perform_parameter session name type default with ⟨hadmits, h⟩ | ⟨-, error, h⟩ <;> rw [h]
    exact reaches_inserted hadmits
  case boolLiteral value =>
    rw [perform_boolLiteral]
    split
    · exact .refl
    case h_2 hnone => exact .share hnone
  case expression op lhs rhs =>
    rw [perform_expression]
    split
    case h_1 hl hr => exact reaches_inserted (admits_expression hl hr rfl)
    all_goals exact .refl
  case namedExpression name op lhs rhs =>
    rw [perform_namedExpression]
    split
    case h_1 hl hr => exact reaches_inserted (admits_expression hl hr rfl)
    all_goals exact .refl
  case copy id =>
    rw [perform_copy]
    split
    case h_1 hn => exact .single (.copy hn)
    case h_2 => exact .refl
  case flipPort id =>
    rw [perform_flipPort]
    split
    · exact .refl
    case h_2 hn =>
      split
      case h_1 hr => exact .single (.turn hn hr)
      case h_2 => exact .refl
  case connect destination source => exact reaches_perform_connect hw destination source
  case addSink id sink => exact reaches_perform_connect hw sink id
  case addSource id source => exact reaches_perform_connect hw id source
  case disconnect id => exact reaches_perform_disconnect session id

/-! ### Runs -/

/-- A design without nodes and edges is wired, since there is nothing that could disagree. -/
theorem wired_start (name : String) (policy : Policy) : (start name policy).design.Wired where
  indexed place edge h := absurd h (by simp [edge?, start])
  joins edge h := absurd h (by simp [edges, start])
  outputs_eq h := absurd h (by simp [node?, start])
  input_eq h := absurd h (by simp [node?, start])

/-- A run consists of single changes, those of its refused commands included. -/
theorem reaches_run (hw : session.design.Wired) (commands : List Command) :
    session.design.Reaches (session.run commands).design := by
  induction commands generalizing session with
  | nil => exact .refl
  | cons command commands ih =>
    -- The invariant of the induction is that the design is wired: a command takes it to be so, and
    -- leaves it so.
    have hstep : session.design.Reaches (session.step command).design :=
      reaches_perform hw command
    exact hstep.trans (ih (hstep.wired hw))

/-- After any run of commands, the design is wired. -/
theorem wired_run (name : String) (policy : Policy) (commands : List Command) :
    ((start name policy).run commands).design.Wired :=
  (reaches_run (wired_start name policy) commands).wired (wired_start name policy)

/-- After any run of commands, the policy is the one that the design was started with. -/
theorem policy_run (name : String) (policy : Policy) (commands : List Command) :
    ((start name policy).run commands).design.policy = policy :=
  (reaches_run (wired_start name policy) commands).policy_eq

/-- After any run of commands, refused ones included, the outputs of a node are the connected edges
    from it in the order of their ids, its input is the one connected edge to it, and a connected
    edge carries the place that it stands in and joins two nodes of the design, the second of which
    can be driven. -/
theorem wiring_of_run (name : String) (policy : Policy) (commands : List Command) :
    let design := ((start name policy).run commands).design
    (∀ id node, design.node? id = some node →
      node.outputs = design.outgoing id ∧ node.outputs.Pairwise (· < ·) ∧
        node.input.toList = design.incoming id) ∧
    ∀ place edge, design.edge? place = some edge → edge.id = place ∧ design.Joins edge := by
  intro design
  have hw : design.Wired := wired_run name policy commands
  constructor
  · intro id node hn
    exact ⟨hw.outputs_eq hn, hw.outputs_pairwise hn, hw.input_eq hn⟩
  · intro place edge hedge
    exact ⟨hw.indexed place edge hedge, hw.joins edge (mem_edges.mpr ⟨place, hedge⟩)⟩

/-- A node that drives itself has the edge on both sides, as an output and as the input. -/
theorem wiring_of_self_loop :
    let design := ((start "top" .lenient).run [.signal "a" .bit, .connect 0 0]).design
    ∃ node, design.node? 0 = some node ∧ node.outputs = [0] ∧ node.input = some 0 ∧
      node.outputs = design.outgoing 0 ∧ node.input.toList = design.incoming 0 := by
  intro design
  have h := (wiring_of_run "top" .lenient [.signal "a" .bit, .connect 0 0]).1 0 _ rfl
  exact ⟨_, rfl, rfl, rfl, h.1, h.2.2⟩

end Session

end Schematic
