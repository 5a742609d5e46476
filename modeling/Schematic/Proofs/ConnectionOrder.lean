import Schematic.Proofs.Driving
import Schematic.Proofs.Permanence

namespace Schematic

/-!
# The order of connections

Whether a connection is made depends on nothing that connections of other nodes change. Requests
for different nodes are therefore answered by the design as it was before all of them, and what
they leave behind is the same in any order, but for the order of sinks and the ids of edges.

* `Session.answers` — what becomes of some requests, one after the other;
* `Design.granted` — those that the design grants as it is;
* `Wired.response_withDriver` — a new driver of one node is no matter for the others;
* `Session.Requested`, `requested_step` — what one request meets with and leaves behind;
* `Session.answers_eq`, `Session.drives_run` — what all of them meet with and leave behind;
* `Session.connections_perm` — it does not depend on their order.

The invariant is that requests which are still to come are answered as they would have been at
first. A request for one node may take an edge away from another node's outputs, but it never
changes that node's input, nor the name of its edge, nor whether a node is there; and these are all
that the answer depends on. With this, the answers are a map over the requests and the drives are
those of the granted ones, and neither a map nor a list of drives minds a permutation but for its
order.
-/

namespace Drive

/-- The command that asks for it. -/
def command (drive : Drive) : Command := .connect drive.destination drive.source

/-- The drives when some more are made, each instead of the one to its destination. -/
def supersede (drives made : List Drive) : List Drive :=
  drives.filter (fun drive => drive.destination ∉ made.map (·.destination)) ++ made

/-- Without new drives, all drives stay. -/
@[simp] theorem supersede_nil (drives : List Drive) : supersede drives [] = drives := by
  simp [supersede]

/-- One new drive replaces those to the same destination and comes last. -/
theorem supersede_singleton (drives : List Drive) (drive : Drive) :
    supersede drives [drive] = drives.filter (·.destination ≠ drive.destination) ++ [drive] := by
  simp [supersede]

/-- Drives that are made in two portions, with no destination in common, can be made at once. -/
theorem supersede_supersede (drives : List Drive) {made later : List Drive}
    (h : ∀ drive ∈ made, drive.destination ∉ later.map (·.destination)) :
    supersede (supersede drives made) later = supersede drives (made ++ later) := by
  have hkept : made.filter (fun drive => drive.destination ∉ later.map (·.destination)) = made := by
    rw [List.filter_eq_self]
    simpa using h
  simp only [supersede, List.filter_append, hkept, List.filter_filter, List.map_append,
    List.mem_append, not_or, List.append_assoc, Bool.decide_and, Bool.and_comm]

/-- New drives in another order replace the same old ones, and differ from each other in order
    only. -/
theorem supersede_perm (drives : List Drive) {made other : List Drive} (h : made.Perm other) :
    (supersede drives made).Perm (supersede drives other) := by
  have hmem (id : NodeId) : id ∈ made.map (·.destination) ↔ id ∈ other.map (·.destination) :=
    (h.map _).mem_iff
  simp only [supersede, hmem]
  exact h.append_left _

end Drive

namespace Design

variable {design next : Design} {destination source other : NodeId} {driver driven : Node}

/-- The requests that are not refused. -/
def granted (design : Design) (requests : List Drive) : List Drive :=
  requests.filter fun request => (design.response request.destination request.source).isOk

/-! ### One connection -/

/-- The edges to other nodes are as they were. The new edge leads to the node that gets it, and the
    one that goes had led there. -/
theorem Wired.incoming_withDriver (hw : design.Wired)
    (hd : design.node? destination = some driven) (hne : other ≠ destination) :
    (design.withDriver destination source driver driven).incoming other =
      design.incoming other := by
  have hnew : ¬ (design.nextEdge source destination driver.name driven.name).destination =
      some other := by
    simpa [nextEdge] using Ne.symm hne
  have hold (edge : Edge) : (decide (edge.destination = some other) &&
      decide (edge.destination ≠ some destination)) = decide (edge.destination = some other) := by
    by_cases h : edge.destination = some other <;> simp [h, hne]
  simp only [incoming, edgeIds, hw.edges_withDriver hd, List.filter_append, List.filter_filter,
    hold, List.filter_cons, hnew, List.filter_nil, decide_false, Bool.false_eq_true, if_false,
    List.append_nil]

/-- The edge that may have to stay keeps its name, so that an error that mentions it is the same
    behind connections to other nodes. -/
theorem Wired.edgeName_withDriver (hw : design.Wired) (hd : design.node? destination = some driven)
    (hne : other ≠ destination) {node : Node} {place : EdgeId} (hn : design.node? other = some node)
    (hi : node.input = some place) :
    (design.withDriver destination source driver driven).edgeName place =
      design.edgeName place := by
  obtain ⟨edge, hedge, hto⟩ := hw.edge?_of_input hn hi
  have hkept : design.destination? place ≠ some destination := by
    rw [destination?, hedge, Option.bind_some, hto]
    simpa using hne
  rw [edgeName, hw.edge?_withDriver hd (lt_size_of_edge? hedge), if_neg hkept, ← edgeName]

/-- The request of a node for a driver meets with the same response after another node has got its
    driver. -/
theorem Wired.response_withDriver (hw : design.Wired) (hs : design.node? source = some driver)
    (hd : design.node? destination = some driven) (hl : driven.isLiteral = false)
    (hne : other ≠ destination) (origin : NodeId) :
    (design.withDriver destination source driver driven).response other origin =
      design.response other origin := by
  have hw' := hw.withDriver hs hd hl
  have hext := Extends.withDriver design destination source driver driven
  have hpolicy := (Rewires.withDriver design destination source driver driven).policy
  have hc := nodeCount_withDriver design destination source driver driven
  -- The response looks at the two nodes and at the policy, one after the other, and all of these
  -- are as they were.
  cases ho : design.node? origin with
  | none => simp only [response, ho, node?_eq_none_of_nodeCount_eq hc ho]
  | some before =>
    obtain ⟨after, ho', -⟩ := hext.keep ho
    cases hn : design.node? other with
    | none => simp only [response, ho, ho', hn, node?_eq_none_of_nodeCount_eq hc hn]
    | some node =>
      obtain ⟨node', hn', hname, hliteral⟩ := hext.keep hn
      have hinput : node'.input = node.input :=
        hw.input_congr hw' hn hn' (hw.incoming_withDriver hd hne)
      simp only [response, ho, ho', hn, hn', hname, hliteral, hinput, hpolicy]
      cases design.policy.replacement with
      | detach => rfl
      | reject =>
        cases hi : node.input with
        | none => rfl
        | some place => simp only [hw.edgeName_withDriver hd hne hn hi]

/-- The neighbours follow from the drives, and only the order of sinks from their order. -/
theorem Wired.neighbours_of_perm (hw : design.Wired) (hw' : next.Wired)
    (h : design.drives.Perm next.drives) :
    design.driver? = next.driver? ∧ (∀ id, (design.sinks id).Perm (next.sinks id)) ∧
      design.edgeCount = next.edgeCount := by
  refine ⟨hw'.driver?_ext hw fun _ => h.mem_iff, fun id => ?sinks, ?edgeCount⟩
  case sinks =>
    rw [hw.sinks_eq, hw'.sinks_eq]
    exact (h.filter _).map _
  case edgeCount => rw [hw.edgeCount_eq, hw'.edgeCount_eq, h.length_eq]

end Design

namespace Session

open Design

variable {session : Session} {requests permuted : List Drive}

/-- What becomes of some requests, each made whether those before it are refused or not. -/
def answers (session : Session) : List Drive → List (Drive × Except Error Unit)
  | [] => []
  | request :: requests =>
    (request, (session.perform request.command.run).1.map fun _ => ()) ::
      (session.step request.command).answers requests

/-- What a request meets with and leaves behind. -/
structure Requested (session : Session) (request : Drive) (next : Session) : Prop where
  wired : next.design.Wired
  answer : (session.perform request.command.run).1.map (fun _ => ()) =
    session.design.response request.destination request.source
  /-- Requests for other nodes are none the wiser. -/
  response : ∀ other origin, other ≠ request.destination →
    next.design.response other origin = session.design.response other origin
  drives : next.design.drives =
    Drive.supersede session.design.drives (session.design.granted [request])

/-- A request is answered by its response, leaves other requests with the answers that they would
    have had, and adds its drive if it is granted. -/
theorem requested_step (hw : session.design.Wired) (request : Drive) :
    session.Requested request (session.step request.command) := by
  -- A refused request changes nothing at all.
  rcases run_connect_cases hw request.destination request.source with
    ⟨error, hresponse, h⟩ | ⟨hresponse, driver, driven, journal, hs, hd, hl, h⟩
  · have hgranted : session.design.granted [request] = [] := by
      simp [granted, hresponse, Except.isOk, Except.toBool]
    rw [step, Drive.command, h]
    exact ⟨hw, by rw [Drive.command, h, hresponse]; rfl, fun _ _ _ => rfl, by
      rw [hgranted, Drive.supersede_nil]⟩
  · have hgranted : session.design.granted [request] = [request] := by
      simp [granted, hresponse, Except.isOk, Except.toBool]
    rw [step, Drive.command, h]
    refine ⟨hw.withDriver hs hd hl, by rw [Drive.command, h, hresponse]; rfl,
      fun other origin hne => hw.response_withDriver hs hd hl hne origin, ?_⟩
    rw [hgranted, Drive.supersede_singleton]
    exact hw.drives_withDriver hd

/-- The requests behind it meet with what they would have met with before it. -/
theorem Requested.response_of_mem {request later : Drive} {next : Session}
    (h : session.Requested request next) (hmem : later ∈ requests)
    (hnot : request.destination ∉ requests.map (·.destination)) :
    next.design.response later.destination later.source =
      session.design.response later.destination later.source := by
  refine h.response _ _ fun heq => hnot ?_
  rw [← heq]
  exact List.mem_map_of_mem hmem

/-- All requests are answered as the design stands at first. With a destination of its own, no
    request changes what decides about another one, in whichever order they come. -/
theorem answers_eq (hw : session.design.Wired)
    (hdistinct : (requests.map (·.destination)).Nodup) :
    session.answers requests = requests.map fun request =>
      (request, session.design.response request.destination request.source) := by
  induction requests generalizing session with
  | nil => rfl
  | cons request requests ih =>
    rw [List.map_cons, List.nodup_cons] at hdistinct
    have h := requested_step hw request
    rw [answers, h.answer, ih h.wired hdistinct.2, List.map_cons]
    refine congrArg _ (List.map_congr_left fun later hlater => ?_)
    rw [h.response_of_mem hlater hdistinct.1]

/-- Behind requests for different nodes there are the drives from before, with those of the granted
    requests in place of the ones that they replace. By induction on the requests. -/
theorem drives_run (hw : session.design.Wired)
    (hdistinct : (requests.map (·.destination)).Nodup) :
    (session.run (requests.map Drive.command)).design.drives =
      Drive.supersede session.design.drives (session.design.granted requests) := by
  induction requests generalizing session with
  | nil => exact (Drive.supersede_nil _).symm
  | cons request requests ih =>
    rw [List.map_cons, List.nodup_cons] at hdistinct
    have h := requested_step hw request
    -- No later request is for the node of the first one, and so it meets with the same response
    -- before and after.
    have hlater : (session.step request.command).design.granted requests =
        session.design.granted requests :=
      List.filter_congr fun later hmem => by rw [h.response_of_mem hmem hdistinct.1]
    have hother : ∀ drive ∈ session.design.granted [request],
        drive.destination ∉ (session.design.granted requests).map (·.destination) := by
      intro drive hdrive hmem
      obtain rfl := List.mem_singleton.mp (List.mem_of_mem_filter hdrive)
      exact hdistinct.1 (List.filter_sublist.map _ |>.subset hmem)
    calc ((session.step request.command).run (requests.map Drive.command)).design.drives
      _ = Drive.supersede (Drive.supersede session.design.drives (session.design.granted [request]))
            (session.design.granted requests) := by
          rw [ih h.wired hdistinct.2, h.drives, hlater]
      _ = Drive.supersede session.design.drives (session.design.granted (request :: requests)) := by
          rw [Drive.supersede_supersede _ hother, granted, granted, ← List.filter_append]
          rfl

/-- Behind any run, requests for different nodes can be made in any order. Each is answered the
    same, and all nodes have the same drivers and the same sinks in the end. -/
theorem connections_perm (name : String) (policy : Policy) (earlier : List Command)
    (hdistinct : (requests.map (·.destination)).Nodup) (hperm : requests.Perm permuted) :
    let session := (start name policy).run earlier
    let next := (session.run (requests.map Drive.command)).design
    let other := (session.run (permuted.map Drive.command)).design
    (session.answers requests).Perm (session.answers permuted) ∧
      next.driver? = other.driver? ∧ (∀ id, (next.sinks id).Perm (other.sinks id)) ∧
      next.edgeCount = other.edgeCount := by
  intro session next other
  have hw : session.design.Wired := wired_run name policy earlier
  have hdistinct' : (permuted.map (·.destination)).Nodup :=
    (hperm.map _).nodup_iff.mp hdistinct
  -- Both runs begin in one session, so that the same requests are granted in both.
  have hdrives : next.drives.Perm other.drives := by
    rw [drives_run hw hdistinct, drives_run hw hdistinct']
    exact Drive.supersede_perm _ (hperm.filter _)
  have hanswers : (session.answers requests).Perm (session.answers permuted) := by
    rw [answers_eq hw hdistinct, answers_eq hw hdistinct']
    exact hperm.map _
  have hnext : next.Wired := (reaches_run hw _).wired hw
  have hother : other.Wired := (reaches_run hw _).wired hw
  exact ⟨hanswers, hnext.neighbours_of_perm hother hdrives⟩

/-- Two nodes that drive themselves are to drive each other, and one of them a literal as well. The
    first two requests are granted in either order, although each removes an edge from the node that
    the other one is about. -/
theorem connections_of_reversed :
    let session := (start "top" .lenient).run
      [.signal "a" .bit, .signal "b" .bit, .literal "c" .bit (.bool true), .connect 0 0,
        .connect 1 1]
    let requests : List Drive := [⟨0, 1⟩, ⟨1, 0⟩, ⟨0, 2⟩]
    let next := (session.run (requests.map Drive.command)).design
    let other := (session.run (requests.reverse.map Drive.command)).design
    session.answers requests =
        [(⟨0, 1⟩, .ok ()), (⟨1, 0⟩, .ok ()), (⟨0, 2⟩, .error (.cannotDriveLiteral "c"))] ∧
      (session.answers requests).Perm (session.answers requests.reverse) ∧
      next.driver? = other.driver? ∧ (∀ id, (next.sinks id).Perm (other.sinks id)) ∧
      next.edgeCount = other.edgeCount := by
  intro session requests next other
  have hdistinct : (requests.map (·.destination)).Nodup := by decide
  refine ⟨?_, connections_perm "top" .lenient
    [.signal "a" .bit, .signal "b" .bit, .literal "c" .bit (.bool true), .connect 0 0, .connect 1 1]
    hdistinct requests.reverse_perm.symm⟩
  rw [answers_eq (wired_run ..) hdistinct]
  rfl

end Session

end Schematic
