import Schematic.Proofs.Composition
import Schematic.Proofs.NodeEdits

namespace Schematic

/-!
# The lenient policy

The lenient policy refuses nothing that another policy allows. Two runs of the same edit, one under
a policy and one under the lenient policy, go side by side until the first one fails.

* `Design.relaxed`, `Session.relaxed` — the same under the lenient policy;
* `Edit.Relaxes` — whatever the edit gives under a policy, it gives under the lenient one, and
  leaves the same design and journal;
* `Relaxes.compositional` — the two runs go step by step;
* `Relaxes.release` — the only edit that asks for the policy;
* `Netlist.toDesign_lenient` — what is built under some policy is built under the lenient one.

The statement is about two runs, but the proof follows one edit: the edit relates the two runs if
its steps do. Behind a success of the first step under the given policy, the second run has the same
value and a session that differs in the policy alone, so that the next step can be compared in turn.
Only `Edit.release` looks at the policy, and there the lenient one is the one that does not refuse.
-/

/-- The design under the lenient policy. -/
def Design.relaxed (design : Design) : Design := { design with policy := .lenient }

/-- The session under the lenient policy. -/
def Session.relaxed (session : Session) : Session :=
  { session with design := session.design.relaxed }

namespace Edit

variable {α β σ : Type}

/-- Whatever the edit gives, it gives under the lenient policy too, and leaves the same design and
    journal behind. -/
def Relaxes (edit : Edit α) : Prop :=
  ∀ session value next, Session.perform session edit = (.ok value, next) →
    session.relaxed.perform edit = (.ok value, next.relaxed)

namespace Relaxes

/-! ### Steps -/

/-- Two runs go on side by side as long as they have the same value to go on with. That is why what
    follows a look at the design may depend on anything but the policy. -/
theorem compositional : Compositional Relaxes where
  pure value := by
    rintro session _ _ ⟨⟩
    rfl
  throw error := by rintro session _ _ ⟨⟩
  bind {α β first next} h hnext := by
    intro session value last hp
    rw [Session.perform_bind] at hp ⊢
    split at hp
    case h_1 result mid hmid =>
      rw [h session result mid hmid]
      exact hnext result mid value last hp
    case h_2 => exact absurd (Prod.mk.inj hp).1 (by simp)
  bind_design {β next} hsame hnext := by
    intro session value last hp
    rw [Session.perform_bind, Session.perform_design] at hp ⊢
    have hrest := hnext session.design session value last hp
    show session.relaxed.perform (next session.design.relaxed) = _
    rw [Design.relaxed, hsame, hrest]

/-- An event is noted under any policy. -/
theorem note (event : Event) : Relaxes (Edit.note event) := by
  rintro session _ _ ⟨⟩
  rfl

/-- A change that does not depend on the policy and does not touch it. -/
theorem change {step : Design → Design}
    (hstep : ∀ design, step design.relaxed = (step design).relaxed) :
    Relaxes (Edit.change step) := by
  rintro session _ _ ⟨⟩
  rw [Session.perform_change, Session.relaxed, Session.relaxed, hstep]

/-- A declaration is accepted or refused whatever the policy is. -/
theorem defineType (name : String) (shape : Shape) : Relaxes (Edit.defineType name shape) :=
  compositional.defineType (fun _ => change fun _ => rfl) name shape

/-- The policy has no say in what nodes there are. None of the edits that make nodes looks at it. -/
theorem coversNodes : CoversNodes Relaxes where
  toCompositional := compositional
  insert naming _ :=
    compositional.insert (fun _ _ _ _ => note _) (change fun _ => by cases naming <;> rfl)
  share value id := change fun _ => by cases value <;> rfl

/-! ### Edges -/

/-- An edge can be removed under any policy. What is looked up, the edge, is the same in both
    designs. -/
theorem disconnect (id : EdgeId) : Relaxes (Edit.disconnect id) := by
  refine compositional.disconnect (fun _ edge => change fun _ => ?_) (fun _ _ => note _) id
  -- A removal goes through the ends that the edge has.
  obtain ⟨_, _, _ | source, _ | destination⟩ := edge <;> rfl

/-- Where a driver may be replaced, it is replaced, and where it may not, nothing is to be shown. -/
theorem release (id : NodeId) (node : Node) : Relaxes (Edit.release id node) := by
  unfold Edit.release
  split
  case h_1 => exact compositional.pure ()
  case h_2 stale _ =>
    intro session value next h
    have hdetach : Relaxes (do Edit.note (.replacing id stale); Edit.disconnect stale) :=
      compositional.bind (note _) fun _ => disconnect stale
    rw [Session.perform_bind, Session.perform_design] at h ⊢
    -- Under the given policy the run has succeeded, so that it has replaced the driver as the
    -- lenient one does.
    cases hp : session.design.policy.replacement with
    | reject =>
      simp only [hp, Session.perform_bind, Session.perform_design, Session.perform_throw] at h
      exact absurd (Prod.mk.inj h).1 (by simp)
    | detach =>
      simp only [hp] at h
      exact hdetach session value next h

/-- A connection looks at the policy only where it makes room for the new driver, and before and
    after this the two runs go side by side. -/
theorem connect (destination source : NodeId) : Relaxes (Edit.connect destination source) := by
  refine compositional.bind (compositional.node source) fun driver => ?_
  refine compositional.bind (compositional.node destination) fun driven => ?_
  split
  case isTrue => exact compositional.throw _
  case isFalse =>
    refine compositional.bind (release destination driven) fun _ => ?_
    refine compositional.bind_design (fun _ _ => rfl) fun design => ?_
    refine compositional.bind (change fun _ => rfl) fun _ => ?_
    exact compositional.bind (note _) fun _ => compositional.pure _

end Relaxes

end Edit

/-- A design that is built under some policy is built under the lenient one. The design is the same
    but for the policy that it carries. -/
theorem Netlist.toDesign_lenient {netlist : Netlist} {policy : Policy} {design : Design}
    (h : netlist.toDesign policy = .ok design) :
    netlist.toDesign .lenient = .ok design.relaxed := by
  have hrelaxes := Edit.Relaxes.coversNodes.build .defineType .connect
    (fun _ _ _ => .note _) netlist (Session.start netlist.designName policy)
  unfold toDesign build at h ⊢
  cases hp : (Session.start netlist.designName policy).perform (Edit.build netlist) with
  | mk outcome session =>
    rw [hp] at h
    cases outcome with
    | error error => exact absurd h (by simp [Except.map])
    | ok value =>
      obtain rfl := Except.ok.inj h
      have hlenient := hrelaxes value session hp
      -- The lenient run starts from the same session, but for the policy.
      rw [show Session.start netlist.designName .lenient =
        (Session.start netlist.designName policy).relaxed from rfl, hlenient]
      rfl

end Schematic
