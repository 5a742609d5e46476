import Schematic.Design.Update
import Schematic.Journal

namespace Schematic

/-!
# Edits

An edit is a change to a design that may fail and that keeps a journal. What an edit has done before
it fails, and what it has noted, stays.

* `Session` — a design and its journal;
* `Edit` — the changes, with their elementary ones;
* `Session.perform` — what comes of an edit;
* `Session.perform_bind` and its neighbours — what comes of one made of others, step by step.
-/

/-- A design with the journal of what has happened to it. -/
structure Session where
  /-- The design as it is. -/
  design : Design
  /-- The events so far. -/
  journal : Array Event := #[]

/-- A change to a design. -/
abbrev Edit := EStateM Error Session

/-- A design without nodes, and an empty journal. -/
def Session.start (name : String) (policy : Policy) : Session where
  design := { name, policy }

/-- The outcome of an edit, and the session behind it. -/
def Session.perform {α : Type} (session : Session) (edit : Edit α) : Except Error α × Session :=
  match edit.run session with
  | .ok value session => (.ok value, session)
  | .error error session => (.error error, session)

namespace Edit

/-- The design as it is. -/
def design : Edit Design := do return (← get).design

/-- The node in a place. -/
def node (id : NodeId) : Edit Node := do MonadExcept.ofExcept ((← design).node id)

/-- Changes the design. -/
def change (step : Design → Design) : Edit Unit :=
  modify fun session => { session with design := step session.design }

/-- Notes an event. -/
def note (event : Event) : Edit Unit :=
  modify fun session => { session with journal := session.journal.push event }

/-- Declares a type. -/
def defineType (name : String) (shape : Shape) : Edit DataType := do
  let (type, types) ← MonadExcept.ofExcept ((← design).types.define name shape)
  change fun design => { design with types }
  return type

end Edit

/-! ### What comes of an edit, step by step -/

namespace Session

variable {α β : Type}

/-- An edit that does nothing gives its value and leaves the session as it is. -/
@[simp] theorem perform_pure (session : Session) (value : α) :
    session.perform (pure value) = (.ok value, session) := rfl

/-- An edit that fails at once leaves the session as it is. -/
@[simp] theorem perform_throw (session : Session) (error : Error) :
    session.perform (throw error : Edit α) = (.error error, session) := rfl

/-- A failure ends an edit, and what was done before it stays. The second edit starts from the
    session that the first one has left. -/
@[simp] theorem perform_bind (session : Session) (first : Edit α) (next : α → Edit β) :
    session.perform (first >>= next) =
      match session.perform first with
      | (.ok value, session) => session.perform (next value)
      | (.error error, session) => (.error error, session) := by
  simp only [perform, EStateM.run_bind]
  cases first.run session <;> rfl

/-- A function of the value of an edit changes the outcome and not the session. -/
@[simp] theorem perform_map (session : Session) (f : α → β) (edit : Edit α) :
    session.perform (f <$> edit) =
      ((session.perform edit).1.map f, (session.perform edit).2) := by
  rw [map_eq_pure_bind, perform_bind]
  rcases session.perform edit with ⟨_ | _, _⟩ <;> rfl

/-- The outcome of a calculation is the outcome of the edit, and the session stays as it is. -/
@[simp] theorem perform_ofExcept (session : Session) (outcome : Except Error α) :
    session.perform (MonadExcept.ofExcept outcome : Edit α) = (outcome, session) := by
  cases outcome <;> rfl

/-- An edit can read the design, which changes nothing and cannot fail. -/
@[simp] theorem perform_design (session : Session) :
    session.perform Edit.design = (.ok session.design, session) := rfl

/-- A change to the design always succeeds, and notes nothing. -/
@[simp] theorem perform_change (session : Session) (step : Design → Design) :
    session.perform (Edit.change step) =
      (.ok (), { session with design := step session.design }) := rfl

/-- An event comes last in the journal, and the design stays as it is. -/
@[simp] theorem perform_note (session : Session) (event : Event) :
    session.perform (Edit.note event) =
      (.ok (), { session with journal := session.journal.push event }) := rfl

/-- An edit can read a node, and fails if the place is empty. It changes nothing in either case. -/
@[simp] theorem perform_node (session : Session) (id : NodeId) :
    session.perform (Edit.node id) = (session.design.node id, session) := by
  simp [Edit.node]

end Session

end Schematic
