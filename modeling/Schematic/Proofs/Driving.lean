import Schematic.Proofs.Changes
import Schematic.Proofs.Neighbours

namespace Schematic

/-!
# What a connection does

A request for a driver is refused for one of four reasons. Otherwise the node has the driver that it
asked for, and nothing else changes but that it is no longer a sink of the driver that it had.

* `Wired.response_eq_error` — the reasons;
* `Design.Redrives`, `Wired.redrives` — what becomes of the neighbours of all nodes;
* `Session.connect_of_run` — both, behind any run of commands.

The outcome of a connection is known from its response. For the effect, the list of drives is the
only thing to look at: the drives to the destination are filtered out, and the new one is appended.
Drivers, sinks and the number of edges are read off both lists. A destination that has this driver
already loses it and gets it back, and a loop is a drive like any other, so that neither needs a
case of its own.
-/

namespace Design

variable {design next : Design} {destination source : NodeId} {driver driven : Node}

/-! ### Refusal -/

/-- A request for a driver is refused if one of the two nodes is not there, if a literal would be
    driven, or if the node has a driver that has to stay. -/
theorem Wired.response_eq_error (hw : design.Wired) (destination source : NodeId) :
    (∃ error, design.response destination source = .error error) ↔
      design.node? source = none ∨ design.node? destination = none ∨
        (∃ node, design.node? destination = some node ∧ node.isLiteral = true) ∨
          (design.policy.replacement = .reject ∧ design.driver? destination ≠ none) := by
  -- The checks in the order in which they are made. The last one asks for an input, and having one
  -- is to have a driver, since the design is wired.
  unfold response
  cases hs : design.node? source with
  | none => simp
  | some driver =>
    cases hd : design.node? destination with
    | none => simp
    | some driven =>
      cases hl : driven.isLiteral with
      | true => simp [hl]
      | false =>
        rw [ne_eq, ← hw.input_eq_none_iff_driver? hd]
        cases hp : design.policy.replacement with
        | detach => simp [hl]
        | reject => cases hi : driven.input <;> simp [hl, hi]

/-- The old driver of the node is not among the reasons. That its edge is missing can only happen in
    a design that is not wired. -/
theorem response_ne_edgeNotFound (design : Design) (destination source : NodeId) (id : EdgeId) :
    design.response destination source ≠ .error (.edgeNotFound id) := by
  unfold response
  split
  · simp
  · simp
  · split
    · simp
    · split <;> simp

/-! ### Success -/

/-- The design is another one in that `source` drives `destination`. -/
structure Redrives (design : Design) (destination source : NodeId) (next : Design) : Prop where
  /-- The destination has the new driver. -/
  driver : next.driver? destination = some source
  /-- Every other node keeps its driver. -/
  drivers : ∀ id, id ≠ destination → next.driver? id = design.driver? id
  /-- The destination is the last sink of its driver, even if it has been a sink of it before. -/
  sinks : next.sinks source = (design.sinks source).filter (· ≠ destination) ++ [destination]
  /-- No other node has the destination as a sink, and it keeps all its other sinks. -/
  others : ∀ id, id ≠ source → next.sinks id = (design.sinks id).filter (· ≠ destination)
  /-- There is one more edge, unless the node had a driver. -/
  edgeCount : next.edgeCount =
    if design.driver? destination = none then design.edgeCount + 1 else design.edgeCount

/-- At most one drive leads to a node. So without the drives to it, there are as many as before or
    one less, by whether the node has a driver. -/
theorem Wired.length_filter_destination (hw : design.Wired) (destination : NodeId) :
    (design.drives.filter (·.destination ≠ destination)).length + 1 =
      if design.driver? destination = none then design.edgeCount + 1 else design.edgeCount := by
  -- No node is driven twice, so that the filter takes out one drive or none.
  have herase : (design.drives.filter (·.destination ≠ destination)).map (·.destination) =
      (design.drives.map (·.destination)).erase destination := by
    rw [hw.destinations_nodup.erase_eq_filter, List.filter_map]
    simp only [bne, beq_eq_decide, ne_eq, decide_not, Function.comp_def]
  rw [← List.length_map (·.destination), herase, List.length_erase, List.length_map,
    hw.edgeCount_eq]
  by_cases hmem : destination ∈ design.drives.map (·.destination)
  · have hpos := List.length_pos_of_mem hmem
    rw [List.length_map] at hpos
    have hdriven := hw.driver?_isSome.mpr hmem
    rw [if_pos hmem, if_neg fun hnone => by simp [hnone] at hdriven]
    omega
  · have hfree : design.driver? destination = none := by
      rw [← Option.not_isSome_iff_eq_none, hw.driver?_isSome]
      exact hmem
    rw [if_neg hmem, if_pos hfree]

/-- A node that is given a driver has it afterwards, and the neighbours of all other nodes change as
    little as this asks for. -/
theorem Wired.redrives (hw : design.Wired) (hs : design.node? source = some driver)
    (hd : design.node? destination = some driven) (hl : driven.isLiteral = false) :
    design.Redrives destination source (design.withDriver destination source driver driven) := by
  have hw' := hw.withDriver hs hd hl
  have hdrives : (design.withDriver destination source driver driven).drives =
      design.drives.filter (·.destination ≠ destination) ++ [⟨source, destination⟩] :=
    hw.drives_withDriver hd
  -- To look for the sinks of a node first and to drop the destination then is the same the other
  -- way round.
  have hsinks (id : NodeId) : ((design.drives.filter (·.destination ≠ destination)).filter
      (·.source = id)).map (·.destination) = (design.sinks id).filter (· ≠ destination) := by
    rw [hw.sinks_eq, List.filter_map, List.filter_filter, List.filter_filter]
    simp only [Function.comp_def, Bool.and_comm]
  constructor
  case driver =>
    rw [hw'.driver?_eq_some, hdrives]
    exact List.mem_append_right _ List.mem_cons_self
  case drivers =>
    intro id hne
    refine Option.ext fun other => ?_
    rw [hw'.driver?_eq_some, hw.driver?_eq_some, hdrives]
    simp [hne]
  case sinks =>
    rw [hw'.sinks_eq, hdrives, List.filter_append, List.map_append, hsinks]
    simp
  case others =>
    intro id hne
    rw [hw'.sinks_eq, hdrives, List.filter_append, List.map_append, hsinks]
    simp [Ne.symm hne]
  case edgeCount =>
    rw [hw'.edgeCount_eq, hdrives, List.length_append, ← hw.length_filter_destination]
    rfl

end Design

/-! ### Runs -/

namespace Session

open Design

variable {session : Session}

/-- The command is refused, or it makes an edge and gives a node its new driver. Which of the two is
    known beforehand, from the response of the design to the two ids. -/
theorem run_connect_cases (hw : session.design.Wired) (destination source : NodeId) :
    (∃ error, session.design.response destination source = .error error ∧
      session.perform (Command.connect destination source).run = (.error error, session)) ∨
    session.design.response destination source = .ok () ∧
      ∃ driver driven journal, session.design.node? source = some driver ∧
        session.design.node? destination = some driven ∧ driven.isLiteral = false ∧
        session.perform (Command.connect destination source).run =
          (.ok (.edge session.design.edgeTable.size),
            { design := session.design.withDriver destination source driver driven, journal }) := by
  have hrun : (Command.connect destination source).run =
      Reply.edge <$> Edit.connect destination source := rfl
  rw [hrun, perform_map]
  rcases perform_connect_cases hw destination source with
    ⟨error, hresponse, h⟩ | ⟨hresponse, driver, driven, journal, hs, hd, hl, -, h⟩
  · exact .inl ⟨error, hresponse, by rw [h]; rfl⟩
  · exact .inr ⟨hresponse, driver, driven, journal, hs, hd, hl, by rw [h]; rfl⟩

/-- Behind any run, a connection is refused exactly for one of the four reasons, and never because
    the old driver could not be found. Where it is made, the node has the new driver, and no more
    than that changes. There are two other ways to ask for the same connection. -/
theorem connect_of_run (name : String) (policy : Policy) (earlier : List Command)
    (destination source : NodeId) :
    let session := (start name policy).run earlier
    let design := session.design
    let command := Command.connect destination source
    ((∃ error, (session.perform command.run).1 = .error error) ↔
      design.node? source = none ∨ design.node? destination = none ∨
        (∃ node, design.node? destination = some node ∧ node.isLiteral = true) ∨
          (policy.replacement = .reject ∧ design.driver? destination ≠ none)) ∧
    (∀ id, (session.perform command.run).1 ≠ .error (.edgeNotFound id)) ∧
    (∀ reply, (session.perform command.run).1 = .ok reply →
      design.Redrives destination source (session.step command).design) ∧
    session.perform (Command.addSink source destination).run = session.perform command.run ∧
    session.perform (Command.addSource destination source).run = session.perform command.run := by
  intro session design command
  have hw : design.Wired := wired_run name policy earlier
  have hpolicy : design.policy = policy := policy_run name policy earlier
  have hrefused := hw.response_eq_error destination source
  rw [hpolicy] at hrefused
  rw [← hrefused]
  -- Refused or not, the three parts of the answer follow from what the response is and what has
  -- been performed.
  rcases run_connect_cases hw destination source with
    ⟨error, hresponse, hperform⟩ | ⟨hresponse, driver, driven, journal, hs, hd, hl, hperform⟩
  · rw [hperform, hresponse]
    refine ⟨⟨fun _ => ⟨error, rfl⟩, fun _ => ⟨error, rfl⟩⟩, fun id herror => ?_, nofun, ?_, ?_⟩
    · obtain rfl := Except.error.inj herror
      exact response_ne_edgeNotFound _ _ _ id hresponse
    all_goals exact hperform
  · rw [step, hperform, hresponse]
    exact ⟨by simp, nofun, fun _ _ => hw.redrives hs hd hl, hperform, hperform⟩

/-- A node that drives itself and another one gets that other one as its driver. It stays the driver
    of the other, and there are still two edges. -/
theorem connect_of_replaced_loop :
    let session := (start "top" .lenient).run
      [.signal "a" .bit, .signal "b" .bit, .connect 0 0, .connect 1 0]
    let next := session.step (.connect 0 1)
    (session.perform (Command.connect 0 1).run).1 = .ok (.edge 2) ∧
      session.design.Redrives 0 1 next.design ∧
      session.design.driver? 0 = some 0 ∧ next.design.driver? 0 = some 1 ∧
      session.design.sinks 0 = [0, 1] ∧ next.design.sinks 0 = [1] ∧ next.design.sinks 1 = [0] ∧
      next.design.edgeCount = 2 := by
  intro session next
  have h := (connect_of_run "top" .lenient
    [.signal "a" .bit, .signal "b" .bit, .connect 0 0, .connect 1 0] 0 1).2.2.1 (.edge 2) rfl
  exact ⟨rfl, h, rfl, h.driver, rfl, h.others 0 (by decide), h.sinks, h.edgeCount⟩

end Session

end Schematic
