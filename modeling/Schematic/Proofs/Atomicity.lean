import Schematic.Edit.Command
import Schematic.Proofs.NodeEdits
import Schematic.Proofs.Preservation

namespace Schematic

/-!
# Failed edits

An edit that fails leaves the design as it was. Nothing is asked of the design for this: its nodes
may refer to edges that are not there, or to edges of other nodes.

* `Edit.Inspects` — the edit leaves the design as it is;
* `Edit.Succeeds` — the edit never fails;
* `Edit.Atomic` — the edit leaves the design as it is if it fails. An edit is atomic if it looks
  first and changes later (`Inspects.bind_atomic`, `Atomic.bind_succeeds`);
* `Edit.Atomic.disconnect`, `Edit.Atomic.connect` — the edits that look and change several times;
* `Session.design_of_failed_command` — every command is atomic.

The edits look at the design, make up their minds, and then change it. Up to the last check nothing
has changed, so that a failure leaves no trace; behind it nothing can fail. The proofs follow this
shape: an edit is cut at a point with only looks before it or with nothing that fails behind it.
Connecting is the one edit that cannot be cut in this way, since it takes an old driver away in
between; there it is the removal that can fail, and what comes behind the removal cannot.

The journal is left out on purpose. A failed connection may have announced that a driver will be
replaced (`Session.design_of_dead_driver`), and this note stays.
-/

namespace Edit

open Preserves (compositional)

variable {α β : Type} {first : Edit α} {next : α → Edit β}

/-- The edit leaves the design as it is, whether it fails or not. -/
def Inspects (edit : Edit α) : Prop :=
  ∀ design : Design, Preserves (fun session => session.design = design) edit

/-- The edit never fails. -/
def Succeeds (edit : Edit α) : Prop :=
  ∀ session, ∃ value next, Session.perform session edit = (.ok value, next)

/-- If the edit fails, the design is as it was before. -/
def Atomic (edit : Edit α) : Prop :=
  ∀ session error next, Session.perform session edit = (.error error, next) →
    next.design = session.design

/-! ### Looking -/

namespace Inspects

/-- The journal is no part of the design, so that an edit which notes something only looks. -/
theorem note (event : Event) : Inspects (Edit.note event) := fun _ _ h => h

/-- An edit that changes nothing has changed nothing when it fails. -/
theorem atomic {edit : Edit α} (h : Inspects edit) : Atomic edit := by
  intro session error next hp
  have hsame := h session.design session rfl
  rwa [hp] at hsame

/-- Having looked, an edit fails as what follows does. The part that looks leaves the design as it
    was, so that the state to go back to is the same before and behind it. -/
theorem bind_atomic (h : Inspects first) (hnext : ∀ value, Atomic (next value)) :
    Atomic (first >>= next) := by
  intro session error last hp
  have hsame := h session.design session rfl
  rw [Session.perform_bind] at hp
  split at hp
  case h_1 value mid hmid =>
    rw [hmid] at hsame
    exact (hnext value mid error last hp).trans hsame
  case h_2 cause mid hmid =>
    obtain ⟨-, rfl⟩ := Prod.mk.inj hp
    rwa [hmid] at hsame

end Inspects

/-! ### Changing -/

namespace Succeeds

/-- To do nothing cannot fail. -/
theorem pure (value : α) : Succeeds (pure value) := fun session => ⟨value, session, rfl⟩

/-- To look at the design cannot fail, unlike to look at one of its nodes. -/
theorem design : Succeeds Edit.design := fun session => ⟨session.design, session, rfl⟩

/-- A change to the design cannot fail, since whatever could be wrong has been checked before. -/
theorem change (step : Design → Design) : Succeeds (Edit.change step) := fun _ => ⟨(), _, rfl⟩

/-- To note an event cannot fail. -/
theorem note (event : Event) : Succeeds (Edit.note event) := fun _ => ⟨(), _, rfl⟩

/-- To add a node cannot fail, whether its name is taken or not. -/
theorem insert (naming : Naming) (node : Node) : Succeeds (Edit.insert naming node) :=
  fun _ => ⟨_, _, Session.perform_insert ..⟩

/-- A sequence cannot fail if no step of it can, whatever value the first step hands on. -/
theorem bind (h : Succeeds first) (hnext : ∀ value, Succeeds (next value)) :
    Succeeds (first >>= next) := by
  intro session
  obtain ⟨value, mid, hp⟩ := h session
  rw [Session.perform_bind, hp]
  exact hnext value mid

/-- An edit that cannot fail has nothing to leave behind when it does. -/
theorem atomic {edit : Edit α} (h : Succeeds edit) : Atomic edit := by
  intro session error next hp
  obtain ⟨value, last, hok⟩ := h session
  rw [hok] at hp
  exact absurd (Prod.mk.inj hp).1 (by simp)

end Succeeds

/-! ### Looking first and changing later -/

namespace Atomic

/-- What cannot fail may follow: a failure of the sequence is then one of its first step, before
    anything else has been done. -/
theorem bind_succeeds (h : Atomic first) (hnext : ∀ value, Succeeds (next value)) :
    Atomic (first >>= next) := by
  intro session error last hp
  rw [Session.perform_bind] at hp
  split at hp
  case h_1 value mid hmid =>
    obtain ⟨result, last', hok⟩ := hnext value mid
    rw [hok] at hp
    exact absurd (Prod.mk.inj hp).1 (by simp)
  case h_2 cause mid hmid =>
    obtain ⟨-, rfl⟩ := Prod.mk.inj hp
    exact h session cause mid hmid

/-- A function of the value of an edit makes no difference to whether it fails, nor to what it
    leaves. -/
theorem map {edit : Edit α} (h : Atomic edit) (f : α → β) : Atomic (f <$> edit) := by
  rw [map_eq_pure_bind]
  exact h.bind_succeeds fun value => .pure (f value)

/-! ### The edits -/

/-- A node is added without a check. -/
theorem insert (naming : Naming) (node : Node) : Atomic (Edit.insert naming node) :=
  (Succeeds.insert naming node).atomic

/-- A declaration is checked against the types that there are, and added then. -/
theorem defineType (name : String) (shape : Shape) : Atomic (Edit.defineType name shape) := by
  refine Inspects.bind_atomic (fun _ => .design) fun design => ?_
  refine Inspects.bind_atomic (fun _ => compositional.ofExcept _) fun defined => Succeeds.atomic ?_
  exact (Succeeds.change _).bind fun _ => .pure defined.1

/-- The default of a parameter is looked at, and the node is added then. -/
theorem parameter (name : String) (type : DataType) (default : Option NodeId) :
    Atomic (Edit.parameter name type default) := by
  unfold Edit.parameter
  cases default with
  | none => exact .insert _ _
  | some id =>
    refine Inspects.bind_atomic (fun _ => compositional.node id) fun node => ?_
    exact Inspects.bind_atomic (fun _ => compositional.ofExcept _) fun _ => .insert _ _

/-- Both operands of an expression are looked at, and the node is added then. -/
theorem namedExpression (name : String) (op : Operator) (lhs rhs : NodeId) :
    Atomic (Edit.namedExpression name op lhs rhs) := by
  refine Inspects.bind_atomic (fun _ => compositional.node lhs) fun left => ?_
  exact Inspects.bind_atomic (fun _ => compositional.node rhs) fun _ => .insert _ _

/-- Both operands of an expression are looked at, and its name is made from theirs before the node
    is added. -/
theorem expression (op : Operator) (lhs rhs : NodeId) : Atomic (Edit.expression op lhs rhs) := by
  refine Inspects.bind_atomic (fun _ => compositional.node lhs) fun left => ?_
  exact Inspects.bind_atomic (fun _ => compositional.node rhs) fun right => .insert _ _

/-- The literal of a truth value is looked up, and is made and noted without a check if there is
    none. -/
theorem boolLiteral (value : Bool) : Atomic (Edit.boolLiteral value) := by
  refine Inspects.bind_atomic (fun _ => .design) fun design => Succeeds.atomic ?_
  cases design.shared? value with
  | some id => exact .pure id
  | none =>
    refine (Succeeds.insert _ _).bind fun id => ?_
    exact (Succeeds.change _).bind fun _ => .pure id

/-- The node to copy is looked at, and the copy is added then. -/
theorem copy (id : NodeId) : Atomic (Edit.copy id) := by
  refine Inspects.bind_atomic (fun _ => compositional.node id) fun template => Succeeds.atomic ?_
  refine Succeeds.design.bind fun design => ?_
  refine (Succeeds.note _).bind fun _ => ?_
  exact (Succeeds.change _).bind fun _ => .pure design.nodeCount

/-- The node is looked at and has to be a port, which is turned around then. -/
theorem flipPort (id : NodeId) : Atomic (Edit.flipPort id) := by
  refine Inspects.bind_atomic (fun _ => compositional.node id) fun node => ?_
  split
  case h_1 direction _ =>
    exact ((Succeeds.change _).bind fun _ => .pure direction.flip).atomic
  case h_2 => exact Inspects.atomic fun _ => compositional.throw _

/-- An edge that is not there is found missing before anything is done. -/
theorem disconnect (id : EdgeId) : Atomic (Edit.disconnect id) := by
  refine Inspects.bind_atomic (fun _ => .design) fun design => ?_
  split
  case h_1 => exact Inspects.atomic fun _ => compositional.throw _
  case h_2 edge _ => exact ((Succeeds.change _).bind fun _ => .note _).atomic

/-- Making room does nothing but disconnect, and that comes last. What may be in the way, the policy
    and the driver, is looked at before. -/
theorem release (id : NodeId) (node : Node) : Atomic (Edit.release id node) := by
  unfold Edit.release
  split
  case h_1 => exact Inspects.atomic fun _ => compositional.pure ()
  case h_2 stale _ =>
    refine Inspects.bind_atomic (fun _ => .design) fun design => ?_
    split
    case h_1 =>
      exact Inspects.atomic fun _ => compositional.bind .design fun _ => compositional.throw _
    case h_2 => exact (Inspects.note _).bind_atomic fun _ => .disconnect stale

/-- Behind the disconnection of the old driver nothing can fail, and before it nothing changes. -/
theorem connect (destination source : NodeId) : Atomic (Edit.connect destination source) := by
  refine Inspects.bind_atomic (fun _ => compositional.node source) fun driver => ?_
  refine Inspects.bind_atomic (fun _ => compositional.node destination) fun driven => ?_
  split
  case isTrue => exact Inspects.atomic fun _ => compositional.throw _
  case isFalse =>
    refine (Atomic.release destination driven).bind_succeeds fun _ => ?_
    refine Succeeds.design.bind fun design => ?_
    refine (Succeeds.change _).bind fun _ => ?_
    exact (Succeeds.note _).bind fun _ => .pure _

/-- An edit that a command comes down to looks first and changes later, or it does nothing that can
    fail. -/
theorem coversCommands : CoversCommands Atomic where
  map := Atomic.map
  defineType := Atomic.defineType
  insert := Atomic.insert
  parameter := Atomic.parameter
  boolLiteral := Atomic.boolLiteral
  expression := Atomic.expression
  namedExpression := Atomic.namedExpression
  copy := Atomic.copy
  flipPort := Atomic.flipPort
  connect := Atomic.connect
  disconnect := Atomic.disconnect

end Atomic

end Edit

/-! ### Commands -/

namespace Session

open Edit

/-- A command that fails, for whatever reason and in whatever design, leaves this design as it
    was. -/
theorem design_of_failed_command {session next : Session} {error : Error} (command : Command)
    (h : session.perform command.run = (.error error, next)) : next.design = session.design := by
  suffices hatomic : Atomic command.run from hatomic session error next h
  -- Nothing is known about the design, so that the edits have to be atomic in designs of any kind.
  exact Atomic.coversCommands.run command

/-- A driver that is not there can be in the way of a new one, which the journal has noted by
    then. -/
theorem design_of_dead_driver :
    let session : Session :=
      { design :=
          { name := "top", policy := .lenient,
            nodes := #[⟨"a", .bit, .wired .signal { outputs := [3], input := some 7 }⟩] } }
    ∃ next, session.perform (Command.connect 0 0).run = (.error (.edgeNotFound 7), next) ∧
      next.journal = #[.replacing 0 7] ∧ next.design = session.design := by
  intro session
  exact ⟨_, rfl, rfl, design_of_failed_command (.connect 0 0) rfl⟩

end Session

end Schematic
