import Schematic.Proofs.Permanence

namespace Schematic

/-!
# Copies

A copy has all that its template has, but for the edges, and nothing else in the design changes.

* `Session.step_copy` — the session behind a copy;
* `Change.shared?_eq_some`, `Session.perform_boolLiteral_run` — a literal that is noted for a truth
  value is given out for ever;
* `Session.extends_run` — without turning ports around, no run changes more of a node than its
  edges, so that a copy made later is the same;
* `Session.Copies`, `Session.copy_of_run` — all that a copy is and all that it leaves alone.

A copy is one push to the table of nodes, so that most of what is said of it can be read off the
session behind it. Two facts reach further. A copy made later is the same, since nodes change in
nothing but their edges unless a port is turned around, and edges are not copied. The shared
literals are left alone, since a noted literal is never replaced, whatever commands come between.
-/

namespace Design

variable {design next : Design} {value : Bool} {id : NodeId}

/-! ### Noted literals stay -/

/-- A literal that is noted is never replaced by another one. It is noted only where there is none
    yet, and no other change touches what is noted. -/
theorem Change.shared?_eq_some (h : Change design next) (hs : design.shared? value = some id) :
    next.shared? value = some id := by
  cases h with
  | define | copy | turn => cases value <;> exact hs
  | insert => rw [shared?_insert, hs]
  | @share _ other _ hnone =>
    rw [shared?_share]
    split
    case isTrue hother =>
      -- A literal is noted only where there is none.
      rw [hother, hnone] at hs
      exact absurd hs (by simp)
    case isFalse => exact hs
  | unlink => rw [(Rewires.unlink ..).shared?, hs]
  | link => rw [(Rewires.link ..).shared?, hs]

/-- A literal that is noted is the noted one behind any sequence of single changes. -/
theorem Reaches.shared?_eq_some (h : design.Reaches next) (hs : design.shared? value = some id) :
    next.shared? value = some id := by
  induction h with
  | refl => exact hs
  | tail _ hchange ih => exact hchange.shared?_eq_some ih

end Design

namespace Session

open Design

variable {session : Session} {id : NodeId} {node : Node} {value : Bool}

/-- A literal that is noted is given out behind any further commands. -/
theorem perform_boolLiteral_run (hw : session.design.Wired)
    (hs : session.design.shared? value = some id) (more : List Command) :
    ((session.run more).perform (Command.boolLiteral value).run).1 = .ok (.node id) := by
  have hlater := (reaches_run hw more).shared?_eq_some hs
  rw [Command.run, perform_map, perform_boolLiteral, hlater]
  rfl

/-- Where none is noted, a new literal comes behind all nodes, and the reply is its id. -/
theorem perform_boolLiteral_of_none (hs : session.design.shared? value = none) :
    (session.perform (Command.boolLiteral value).run).1 = .ok (.node session.design.nodeCount) ∧
      (session.step (.boolLiteral value)).design.node? session.design.nodeCount =
        some (Constant.bool value).literal := by
  rw [step, Command.run, perform_map, perform_boolLiteral, hs]
  refine ⟨rfl, ?_⟩
  show ((session.design.insert .derived (Constant.bool value).literal).share value
    session.design.nodeCount).node? session.design.nodeCount = _
  rw [node?, nodes_share, ← node?, node?_insert, if_pos rfl]

/-! ### Nodes stay -/

/-- Unless ports are turned around, nodes change in their edges alone, in a whole run as in each of
    its commands. A refused command does not even change those. -/
theorem extends_run (hw : session.design.Wired) {commands : List Command}
    (hflip : ∀ id, .flipPort id ∉ commands) :
    session.design.Extends (session.run commands).design := by
  induction commands generalizing session with
  | nil => exact .refl _
  | cons command commands ih =>
    have hstep : session.design.Extends (session.step command).design := by
      -- A refused command changes nothing, and an accepted one is no turn.
      rcases step_cases hw command with hsame | ⟨reply, -, heffect⟩
      · rw [hsame]
        exact .refl _
      · refine heffect.toExtends ?_
        rintro id rfl
        exact hflip id List.mem_cons_self
    exact hstep.trans
      (ih (wired_step hw command) fun id hmem => hflip id (List.mem_cons_of_mem _ hmem))

/-! ### Copies -/

/-- The session behind a copy. -/
theorem step_copy (hn : session.design.node? id = some node) :
    session.step (.copy id) =
      { design := session.design.insertUnnamed node.detached,
        journal := session.journal.push (.copied session.design.nodeCount id) } := by
  rw [step, Command.run, perform_map, perform_copy, hn]

/-- A copy stands behind all nodes that there have been. -/
theorem node?_step_copy (hn : session.design.node? id = some node) (other : NodeId) :
    (session.step (.copy id)).design.node? other =
      if other = session.design.nodeCount then some node.detached
      else session.design.node? other := by
  rw [step_copy hn, node?_insertUnnamed]

/-- A copy of a node is the same as long as the node changes in its edges alone. -/
theorem node?_copy_of_extends {later : Session} (hext : session.design.Extends later.design)
    (hn : session.design.node? id = some node) :
    (later.step (.copy id)).design.node? later.design.nodeCount = some node.detached := by
  obtain ⟨other, ho, hdet⟩ := hext id node hn
  rw [node?_step_copy ho, if_pos rfl, hdet]

/-- The node in the place `id` is copied, and `twin` is its copy. -/
structure Copies (session : Session) (id : NodeId) (node twin : Node) : Prop where
  /-- The copy stands behind all nodes. -/
  reply : (session.perform (Command.copy id).run).1 = .ok (.node session.design.nodeCount)
  nodeCount : (session.step (.copy id)).design.nodeCount = session.design.nodeCount + 1
  made : (session.step (.copy id)).design.node? session.design.nodeCount = some twin
  /-- It has the name, the type and the variant of its template. -/
  same : twin.name = node.name ∧ twin.type = node.type ∧ twin.tag = node.tag
  /-- It has its value, or its direction, its default, its operator and its operands. -/
  payload : twin.value? = node.value? ∧ twin.role? = node.role?
  /-- It has no edges. -/
  edgeless : twin.input = none ∧ twin.outputs = []
  /-- It has no neighbours. -/
  alone : (session.step (.copy id)).design.driver? session.design.nodeCount = none ∧
    (session.step (.copy id)).design.sinks session.design.nodeCount = []
  /-- The nodes that there have been stay as they are, with their edges. -/
  nodes : ∀ other < session.design.nodeCount,
    (session.step (.copy id)).design.node? other = session.design.node? other
  /-- All edges stay. -/
  edgeTable : (session.step (.copy id)).design.edgeTable = session.design.edgeTable
  /-- All neighbours stay. -/
  neighbours : (session.step (.copy id)).design.driver? = session.design.driver? ∧
    (session.step (.copy id)).design.sinks = session.design.sinks
  /-- All names lead to the same nodes as before. -/
  find : (session.step (.copy id)).design.find? = session.design.find?
  /-- The literal that a truth value has is given out in any case, with the copy and without it,
      whatever commands come next. -/
  shared : ∀ value place, session.design.shared? value = some place → ∀ more,
    ((session.run more).perform (Command.boolLiteral value).run).1 = .ok (.node place) ∧
      (((session.step (.copy id)).run more).perform (Command.boolLiteral value).run).1 =
        .ok (.node place)
  /-- The literal of a truth value that has none is made in the next place, and the copy changes
      nothing about it but this place. -/
  fresh : ∀ value, session.design.shared? value = none → ∃ literal,
    (session.perform (Command.boolLiteral value).run).1 = .ok (.node session.design.nodeCount) ∧
      (session.step (.boolLiteral value)).design.node? session.design.nodeCount = some literal ∧
      ((session.step (.copy id)).perform (Command.boolLiteral value).run).1 =
        .ok (.node (session.design.nodeCount + 1)) ∧
      ((session.step (.copy id)).step (.boolLiteral value)).design.node?
        (session.design.nodeCount + 1) = some literal
  /-- A further copy is the same, whether it is one of the template or one of the copy, and whatever
      commands come before it, unless they turn ports around. -/
  again : ∀ more, (∀ place, .flipPort place ∉ more) →
    let later := (session.step (.copy id)).run more
    (later.step (.copy id)).design.node? later.design.nodeCount = some twin ∧
      (later.step (.copy session.design.nodeCount)).design.node? later.design.nodeCount = some twin

/-- A copy in a wired design is the node without its edges, in the next free place, and everything
    else is as it was. -/
theorem Copies.of_wired (hw : session.design.Wired) (hn : session.design.node? id = some node) :
    session.Copies id node node.detached := by
  have hreply : (session.perform (Command.copy id).run).1 =
      .ok (.node session.design.nodeCount) := by
    rw [Command.run, perform_map, perform_copy, hn]
    rfl
  have hw' := wired_step hw (.copy id)
  have heffect := effect_of_reply hw hreply
  have htwin : (session.step (.copy id)).design.node? session.design.nodeCount =
      some node.detached := by rw [node?_step_copy hn, if_pos rfl]
  have hcount : (session.step (.copy id)).design.nodeCount = session.design.nodeCount + 1 := by
    rw [step_copy hn]
    exact Array.size_push ..
  have hshared : (session.step (.copy id)).design.shared? = session.design.shared? := by
    rw [step_copy hn]
    funext value
    cases value <;> rfl
  -- The session behind the copy is known, and most parts are read off it. The last three look
  -- further ahead.
  constructor
  case reply => exact hreply
  case nodeCount => exact hcount
  case made => exact htwin
  case same => exact ⟨node.name_detached, node.type_detached, node.tag_detached⟩
  case payload => exact ⟨node.value?_detached, node.role?_detached⟩
  case edgeless => exact ⟨node.input_detached, node.outputs_detached⟩
  case alone =>
    constructor
    · rw [driver?, htwin, Option.bind_some, node.input_detached, Option.bind_none]
    · simp only [sinks, htwin, node.outputs_detached, List.filterMap_nil]
  case nodes =>
    intro other hlt
    rw [node?_step_copy hn, if_neg (Nat.ne_of_lt hlt)]
  case edgeTable => exact heffect.edgeTable_eq rfl fun place => by simp
  case neighbours => exact (heffect.neighbours hw rfl fun place => by simp).2
  case find =>
    rw [step_copy hn]
    rfl
  case shared =>
    intro value place hs more
    exact ⟨perform_boolLiteral_run hw hs more,
      perform_boolLiteral_run hw' (by rw [hshared, hs]) more⟩
  case fresh =>
    intro value hs
    obtain ⟨hplain, hnode⟩ := perform_boolLiteral_of_none hs
    have hs' : (session.step (.copy id)).design.shared? value = none := by rw [hshared, hs]
    obtain ⟨hcopied, hnode'⟩ := perform_boolLiteral_of_none hs'
    rw [hcount] at hcopied hnode'
    exact ⟨_, hplain, hnode, hcopied, hnode'⟩
  case again =>
    intro more hflip
    have hext := extends_run hw' hflip
    constructor
    · have hold := heffect.toExtends (by simp)
      exact node?_copy_of_extends (hold.trans hext) hn
    · rw [node?_copy_of_extends hext htwin, Node.detached_detached]

/-- Behind any run of commands, the copy of a node is a node of its own that has all that the other
    has but its edges, and nothing else changes. -/
theorem copy_of_run (name : String) (policy : Policy) (commands : List Command)
    (hn : ((start name policy).run commands).design.node? id = some node) :
    ∃ twin, ((start name policy).run commands).Copies id node twin :=
  ⟨node.detached, .of_wired (wired_run name policy commands) hn⟩

/-- A parameter drives itself, and its copy neither drives anything nor is driven. The copy has the
    same default, a copy of it is no other than a second one of the parameter, and the literal of
    the constant `true` is still given out. -/
theorem copy_of_self_driven_parameter :
    let session := (start "top" .lenient).run
      [.intLiteral 3, .parameter "p" .integer (some 0), .boolLiteral true, .connect 1 1]
    let copied := session.step (.copy 1)
    ∃ template twin, session.design.node? 1 = some template ∧ template.input = some 0 ∧
      copied.design.node? 3 = some twin ∧ twin.role? = some (.parameter (some 0)) ∧
      twin.input = none ∧ copied.design.node? 1 = some template ∧
      copied.design.driver? 1 = some 1 ∧ copied.design.find? "p" = some 1 ∧
      (copied.perform (Command.boolLiteral true).run).1 = .ok (.node 2) ∧
      (∃ literal, (session.step (.boolLiteral false)).design.node? 3 = some literal ∧
        (copied.step (.boolLiteral false)).design.node? 4 = some literal) ∧
      (copied.step (.copy 1)).design.node? 4 = some twin ∧
      (copied.step (.copy 3)).design.node? 4 = some twin := by
  intro session copied
  obtain ⟨twin, h⟩ := copy_of_run "top" .lenient
    [.intLiteral 3, .parameter "p" .integer (some 0), .boolLiteral true, .connect 1 1]
    (rfl : session.design.node? 1 = some _)
  obtain ⟨literal, -, hplain, -, hcopied⟩ := h.fresh false rfl
  obtain ⟨htemplate, htwin⟩ := h.again [] (by simp)
  exact ⟨_, twin, rfl, rfl, h.made, h.payload.2, h.edgeless.1, h.nodes 1 (by decide),
    congrFun h.neighbours.1 1, congrFun h.find "p", (h.shared true 2 rfl []).2,
    ⟨literal, hplain, hcopied⟩, htemplate, htwin⟩

end Session

end Schematic
