import Schematic.Proofs.Composition

namespace Schematic

/-!
# Properties that edits preserve

A property of sessions that every command preserves is there behind every run of commands. Since a
netlist is built by the same edits, the property is there behind a built netlist too.

To preserve a property passes from the parts of an edit to the whole (`Preserves.compositional`),
since an edit that fails halfway has left the session as one of its parts has left it. So it is
enough to look at the parts that change something. A fact of the form "this stays as it is" is the
property of being what it was, which is how the edits that only look at a design are told from the
others.

* `Edit.Preserves` — the edit ends in a session with the property if it begins in one, even if it
  fails;
* `Preserves.compositional` — the parts of an edit may be looked at one by one;
* `Preserves.release` — to make room for a driver is to announce a removal and then to remove;
* `Preserves.run` — what commands preserve, a run of them preserves.
-/

namespace Edit

variable {α : Type} {p : Session → Prop}

/-- The edit leaves a session with the property if it is given one, whether it fails or not. -/
def Preserves (p : Session → Prop) (edit : Edit α) : Prop :=
  ∀ session : Session, p session → p (session.perform edit).2

namespace Preserves

/-- To look at the design changes nothing. -/
theorem design : Preserves p Edit.design := fun _ h => h

/-- An edit preserves what its parts preserve, and neither a value nor a failure is a change. An
    edit that fails in its second part keeps what the first part has done, and this is preserved as
    well. -/
theorem compositional : Compositional (Preserves p) where
  pure _ _ h := h
  throw _ _ h := h
  bind {α β first next} h hnext session hp := by
    have hfirst := h session hp
    rw [Session.perform_bind]
    split
    case h_1 value mid hmid =>
      rw [hmid] at hfirst
      exact hnext value mid hfirst
    case h_2 error mid hmid => rwa [hmid] at hfirst
  bind_design _ hnext session hp := hnext session.design session hp

/-- To make room for a driver is to announce a removal and then to disconnect, unless there is
    nothing to remove or the policy forbids it. -/
theorem release (hnote : ∀ id stale, Preserves p (note (.replacing id stale)))
    (hdisconnect : ∀ id, Preserves p (disconnect id)) (id : NodeId) (node : Node) :
    Preserves p (Edit.release id node) := by
  unfold Edit.release
  split
  case h_1 => exact compositional.pure ()
  case h_2 stale _ =>
    -- The policy is asked here, and each of its answers is a case of its own.
    refine compositional.bind design fun design => ?_
    split
    case h_1 => exact compositional.bind Preserves.design fun _ => compositional.throw _
    case h_2 => exact compositional.bind (hnote id stale) fun _ => hdisconnect stale

/-- What every command preserves, every run of commands preserves. The induction is on the commands,
    and a failed one counts like any other. -/
theorem run {session : Session} (h : ∀ command : Command, Preserves p command.run)
    (hp : p session) (commands : List Command) : p (session.run commands) := by
  induction commands generalizing session with
  | nil => exact hp
  | cons command commands ih => exact ih (h command session hp)

end Preserves

end Edit

end Schematic
