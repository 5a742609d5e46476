import Schematic.Proofs.Effects
import Schematic.Proofs.Neighbours

namespace Schematic

/-!
# Permanence

A node stays what it is for ever, and an edge stays what it is until it is removed. No place is
given out twice.

* `Node.Remains` — a node is still the same one;
* `Design.Keeps` — what a design keeps of an earlier one. Every single change keeps it
  (`Change.keeps`), and therefore every run does;
* `Effect.removes`, `Effect.turns`, `Effect.neighbours` — what a command can change at all, and
  which commands these are;
* `Session.Permanent`, `Session.permanence_of_run` — all this, and that it holds behind every run
  from an empty design.

Permanence is a statement about any two points of a run, and both ends move. It is split in two:
`Design.Keeps` compares two designs, is closed under composition and holds across every single
change, and hence across any run that starts in a wired design. Which command may remove an edge or
turn a port around is asked of one step only, by cases on its effect. The first part tells that
nothing comes back, the second why anything goes.
-/

/-! ### Nodes -/

/-- The node is still the same one. Its edges can be others, and a port can have been turned
    around. -/
structure Node.Remains (node other : Node) : Prop where
  name : other.name = node.name
  type : other.type = node.type
  tag : other.tag = node.tag
  /-- A literal keeps its value. -/
  value : other.value? = node.value?
  /-- A parameter keeps its default, and an expression its operator and its operands. -/
  role : ∀ role, (∀ direction, role ≠ .port direction) → node.role? = some role →
    other.role? = some role

namespace Node.Remains

variable {node other last : Node}

/-- A node is the same as itself. -/
theorem refl (node : Node) : node.Remains node := ⟨rfl, rfl, rfl, rfl, fun _ _ h => h⟩

/-- A node that is the same as one that is the same as a third is the same as this one. -/
theorem trans (h : node.Remains other) (h' : other.Remains last) : node.Remains last where
  name := h'.name.trans h.name
  type := h'.type.trans h.type
  tag := h'.tag.trans h.tag
  value := h'.value.trans h.value
  role role hport hr := h'.role role hport (h.role role hport hr)

/-- Nodes that differ in their edges alone. -/
theorem of_detached (h : other.detached = node.detached) : node.Remains other where
  name := congr_detached name_detached h
  type := congr_detached type_detached h
  tag := congr_detached tag_detached h
  value := congr_detached value?_detached h
  role role _ hr := by rw [congr_detached role?_detached h, hr]

/-- A node that has a role can be given another one. -/
theorem role?_withRole {role before : Role} (hr : node.role? = some before) :
    (node.withRole role).role? = some role := by
  obtain ⟨_, _, _ | _⟩ := node
  · exact absurd hr (by simp [role?])
  · rfl

/-- A port that is turned around is still the same port. Its direction is the one thing about a node
    that can change. -/
theorem withRole {direction turned : Direction} (hr : node.role? = some (.port direction)) :
    node.Remains (node.withRole (.port turned)) := by
  obtain ⟨name, type, _ | ⟨before, pins⟩⟩ := node
  · exact absurd hr (by simp [role?])
  · obtain rfl : before = .port direction := Option.some.inj hr
    refine ⟨rfl, rfl, rfl, rfl, fun role hport hrole => ?_⟩
    exact absurd (Option.some.inj hrole).symm (hport direction)

end Node.Remains

namespace Design

variable {design next later : Design}

/-! ### What is kept -/

/-- What a design keeps of an earlier one. -/
structure Keeps (design next : Design) : Prop where
  /-- A place for an edge is never taken back. -/
  size_le : design.edgeTable.size ≤ next.edgeTable.size
  /-- An edge is there as it was, or it is gone, and what is gone does not come back. -/
  edge : ∀ id < design.edgeTable.size, next.edge? id = design.edge? id ∨ next.edge? id = none
  /-- A node is there, as the same one. -/
  node : ∀ id node, design.node? id = some node →
    ∃ other, next.node? id = some other ∧ node.Remains other

namespace Keeps

/-- A design keeps all of its own. -/
theorem refl (design : Design) : design.Keeps design :=
  ⟨Nat.le_refl _, fun _ _ => .inl rfl, fun _ node h => ⟨node, h, .refl node⟩⟩

/-- What is kept twice is kept. An edge that was gone in between stays gone. -/
theorem trans (h : design.Keeps next) (h' : next.Keeps later) : design.Keeps later where
  size_le := Nat.le_trans h.size_le h'.size_le
  edge id hlt := by
    rcases h'.edge id (Nat.lt_of_lt_of_le hlt h.size_le) with heq | hgone
    · rw [heq]
      exact h.edge id hlt
    · exact .inr hgone
  node id node hn := by
    obtain ⟨other, ho, hsame⟩ := h.node id node hn
    obtain ⟨last, hl, hsame'⟩ := h'.node id other ho
    exact ⟨last, hl, hsame.trans hsame'⟩

/-- Where nodes keep everything but their edges, it is for the edge table to say what is kept. -/
theorem of_extends (hext : design.Extends next)
    (hsize : design.edgeTable.size ≤ next.edgeTable.size)
    (hedge : ∀ id < design.edgeTable.size, next.edge? id = design.edge? id ∨ next.edge? id = none) :
    design.Keeps next where
  size_le := hsize
  edge := hedge
  node id node hn := by
    obtain ⟨other, ho, hdet⟩ := hext id node hn
    exact ⟨other, ho, .of_detached hdet⟩

/-- Where nodes stay what they are and the edge table is the same, everything is kept. -/
theorem of_edgeTable_eq (hext : design.Extends next) (he : next.edgeTable = design.edgeTable) :
    design.Keeps next :=
  of_extends hext (Nat.le_of_eq (by rw [he])) fun _ _ => .inl (by rw [edge?_congr he])

end Keeps

/-- Every single change keeps the nodes, and the edges that it does not remove. No id is given a
    second time, since both tables only grow at their ends. -/
theorem Change.keeps (h : Change design next) : design.Keeps next := by
  cases h with
  | define => exact .of_edgeTable_eq (.of_nodes_eq rfl) rfl
  | insert naming => exact .of_edgeTable_eq (.insert _ _ _) (by cases naming <;> rfl)
  | share => exact .of_edgeTable_eq (.of_nodes_eq (nodes_share ..)) (edgeTable_share ..)
  | copy => exact .of_edgeTable_eq (.insertUnnamed _ _) rfl
  | @turn node id direction hn hr =>
    -- Only the port itself is not as it was, and it is still a port.
    refine ⟨Nat.le_refl _, fun _ _ => .inl rfl, fun other old ho => ?_⟩
    rw [node?_updateNode, ho]
    split
    case isTrue hid =>
      obtain rfl : node = old := Option.some.inj (by rw [← hn, ← ho, hid])
      exact ⟨_, rfl, .withRole hr⟩
    case isFalse => exact ⟨old, rfl, .refl old⟩
  | @unlink edge place h =>
    refine .of_extends (.unlink _ _ _) (by simp) fun id _ => ?_
    rw [edge?_unlink]
    -- One edge is gone, and all others are as they were.
    by_cases hid : id = place
    · exact .inr (if_pos hid)
    · exact .inl (if_neg hid)
  | link =>
    refine .of_extends (.link _ _ _ _) (by simp) fun id hlt => .inl ?_
    rw [edge?_link, if_neg (Nat.ne_of_lt hlt)]

/-- A sequence of single changes keeps the nodes, and the edges that none of them removes. -/
theorem Reaches.keeps (h : design.Reaches next) : design.Keeps next := by
  induction h with
  | refl => exact .refl design
  | tail _ hchange ih => exact ih.trans hchange.keeps

/-! ### What an effect can change -/

section Effects

variable {command : Command} {reply : Reply} {id : EdgeId} {edge : Edge}

namespace Effect

/-- A new edge takes the place behind all edges so far. -/
theorem edge_reply (h : design.Effect command (.edge id) next) :
    id = design.edgeTable.size ∧ next.edgeTable.size = id + 1 := by
  cases h with
  | connected => exact ⟨rfl, size_edgeTable_withDriver ..⟩

/-- The node that a command gives back is there. It may be an old one, where a truth value has its
    literal already. -/
theorem node_reply {id : NodeId} (h : design.Effect command (.node id) next)
    (hnotes : design.NotesLiterals) : ∃ node, next.node? id = some node := by
  cases h with
  | @made _ naming node => exact ⟨node, by rw [node?_insert, if_pos rfl]⟩
  | @noted value =>
    refine ⟨(Constant.bool value).literal, ?_⟩
    rw [node?, nodes_share, ← node?, node?_insert, if_pos rfl]
  | shared hs =>
    obtain ⟨node, hn, -⟩ := hnotes _ id hs
    exact ⟨node, hn⟩
  | copied => exact ⟨_, by rw [node?_insertUnnamed, if_pos rfl]⟩

/-- Only connecting and disconnecting have to do with edges. Every other command leaves the whole
    edge table as it was, empty places included. -/
theorem edgeTable_eq (h : design.Effect command reply next) (hj : command.joined? = none)
    (hd : ∀ id, command ≠ .disconnect id) : next.edgeTable = design.edgeTable := by
  cases h with
  | @made _ naming => cases naming <;> rfl
  | noted => exact edgeTable_share ..
  | connected hj' => exact absurd (hj.symm.trans hj') (by simp)
  | @disconnected id => exact absurd rfl (hd id)
  | defined | shared | copied | turned => rfl

/-- Only turning around does more to a node than to change its edges. -/
theorem toExtends (h : design.Effect command reply next) (hne : ∀ id, command ≠ .flipPort id) :
    design.Extends next := by
  cases h with
  | defined => exact .of_nodes_eq rfl
  | made => exact .insert _ _ _
  | noted => exact (Extends.insert _ _ _).trans (.of_nodes_eq (nodes_share ..))
  | shared => exact .refl design
  | copied => exact .insertUnnamed _ _
  | @turned id => exact absurd rfl (hne id)
  | connected => exact .withDriver _ _ _ _ _
  | disconnected => exact .unlink _ _ _

/-- An edge is removed on demand, or to make room for a new driver of its destination. No other
    command can be the reason that an edge is gone. -/
theorem removes (h : design.Effect command reply next) (hw : design.Wired)
    (hedge : design.edge? id = some edge) (hgone : next.edge? id = none) :
    (command = .disconnect id ∧ reply = .done) ∨
      ∃ destination source made, design.policy.replacement = .detach ∧
        command.joined? = some (destination, source) ∧ reply = .edge made ∧
        edge.destination = some destination := by
  -- An edge that is as it was is not gone.
  have kept (he : next.edge? id = design.edge? id) : False := by
    rw [he, hedge] at hgone
    exact Option.some_ne_none _ hgone
  cases h with
  | @connected _ destination source driver driven hj _ hdriven _ hp =>
    by_cases hd : design.destination? id = some destination
    · -- The edge was in the way, and so the policy is to replace it.
      have hi : driven.input = some id := (hw.input_eq_some hdriven).mpr hd
      have hdetach := hp.resolve_right fun hnone => absurd (hnone.symm.trans hi) (by simp)
      rw [destination?, hedge, Option.bind_some] at hd
      exact .inr ⟨destination, source, _, hdetach, hj, rfl, hd⟩
    · exact (kept (by rw [hw.edge?_withDriver hdriven (lt_size_of_edge? hedge), if_neg hd])).elim
  | @disconnected place _ h =>
    by_cases hid : id = place
    · exact .inl ⟨by rw [hid], rfl⟩
    · exact (kept (by rw [edge?_unlink, if_neg hid])).elim
  | @made _ naming => exact (kept (by cases naming <;> rfl)).elim
  | noted => exact (kept (by rw [edge?_congr (edgeTable_share ..)]; rfl)).elim
  | defined | shared | copied | turned => exact (kept rfl).elim

/-- A port keeps its direction unless it is turned around, which is done to one port by one command
    with its id. -/
theorem turns (h : design.Effect command reply next) {id : NodeId} {node other : Node}
    {direction : Direction} (hn : design.node? id = some node)
    (hr : node.role? = some (.port direction)) (hnext : next.node? id = some other) :
    other.role? = some (.port direction) ∨
      (command = .flipPort id ∧ reply = .direction direction.flip ∧
        other.role? = some (.port direction.flip)) := by
  by_cases hflip : ∃ place, command = .flipPort place
  · obtain ⟨place, rfl⟩ := hflip
    cases h with
    | made ho => exact absurd ho (by simp [Command.origin?])
    | connected hj => exact absurd hj (by simp [Command.joined?])
    | @turned _ turned before hturned hbefore =>
      rw [node?_updateNode, hn] at hnext
      split at hnext
      case isTrue hid =>
        obtain rfl : turned = node := Option.some.inj (by rw [← hturned, ← hn, hid])
        obtain rfl : before = direction := by simpa using hbefore.symm.trans hr
        obtain rfl := Option.some.inj hnext
        exact .inr ⟨by rw [hid], rfl, Node.Remains.role?_withRole hr⟩
      case isFalse =>
        obtain rfl := Option.some.inj hnext
        exact .inl hr
  · -- Any other command leaves all nodes as they are, except for their edges.
    have hext := h.toExtends fun place hp => hflip ⟨place, hp⟩
    obtain ⟨other', ho', hdet⟩ := hext id node hn
    obtain rfl : other' = other := Option.some.inj (ho'.symm.trans hnext)
    exact .inl (by rw [Node.congr_detached Node.role?_detached hdet, hr])

/-- Without connecting and disconnecting, all edges and all neighbours stay. -/
theorem neighbours (h : design.Effect command reply next) (hw : design.Wired)
    (hj : command.joined? = none) (hd : ∀ id, command ≠ .disconnect id) :
    next.edge? = design.edge? ∧ next.driver? = design.driver? ∧ next.sinks = design.sinks := by
  have he := h.edgeTable_eq hj hd
  have hw' := (h.reaches hw).wired hw
  exact ⟨edge?_congr he, hw.driver?_congr hw' he, hw.sinks_congr hw' he⟩

end Effect

end Effects

end Design

/-! ### Runs -/

namespace Session

open Design

variable {session : Session}

/-- A run of commands keeps the nodes, and the edges that none of the commands removes. -/
theorem keeps_run (hw : session.design.Wired) (commands : List Command) :
    session.design.Keeps (session.run commands).design :=
  (reaches_run hw commands).keeps

/-- One command leaves a wired design wired, refused or not. -/
theorem wired_step (hw : session.design.Wired) (command : Command) :
    (session.step command).design.Wired :=
  (reaches_perform hw command).wired hw

/-- The place of an edge is not given to another edge, however much happens in between and whether
    the edge is still there or not. -/
theorem edge_reply_ne (hw : session.design.Wired) {command again : Command} {id : EdgeId}
    (h : (session.perform command.run).1 = .ok (.edge id)) (later : List Command) :
    (((session.step command).run later).perform again.run).1 ≠ .ok (.edge id) := by
  intro hagain
  have hstep := wired_step hw command
  obtain ⟨-, hsize⟩ := (effect_of_reply hw h).edge_reply
  obtain ⟨hid, -⟩ := (effect_of_reply ((reaches_run hstep later).wired hstep) hagain).edge_reply
  -- By then the edge table goes beyond the place, and it does not get shorter again.
  have hlt : id < ((session.step command).run later).design.edgeTable.size := by
    rw [← Nat.succ_le_iff, ← Nat.add_one, ← hsize]
    exact (keeps_run hstep later).size_le
  exact Nat.ne_of_lt hlt hid

/-- An edge is the same in all later designs up to one, and in none of those behind it. -/
theorem edge?_run (hw : session.design.Wired) {id : EdgeId} {edge : Edge}
    (hedge : session.design.edge? id = some edge) (later : List Command) :
    (session.run later).design.edge? id = some edge ∨
      ∀ further, ((session.run later).run further).design.edge? id = none := by
  have hlt := lt_size_of_edge? hedge
  have hkeeps := keeps_run hw later
  rcases hkeeps.edge id hlt with heq | hgone
  · exact .inl (by rw [heq, hedge])
  · refine .inr fun further => ?_
    -- The place is kept, and from now on it is kept empty.
    have hlater := keeps_run ((reaches_run hw later).wired hw) further
    rcases hlater.edge id (Nat.lt_of_lt_of_le hlt hkeeps.size_le) with heq | hgone'
    · rw [heq, hgone]
    · exact hgone'

/-- What a session has given out and made is permanent, whatever commands come next and whether they
    are refused or not. -/
structure Permanent (session : Session) : Prop where
  /-- The place that a new edge gets is not given out again. -/
  fresh : ∀ command id, (session.perform (Command.run command)).1 = .ok (.edge id) →
    ∀ later again, (((session.step command).run later).perform (Command.run again)).1 ≠
      .ok (.edge id)
  /-- An edge stays as it is, and once it is gone it does not come back. -/
  edge : ∀ id edge, session.design.edge? id = some edge →
    ∀ later, (session.run later).design.edge? id = some edge ∨
      ∀ further, ((session.run later).run further).design.edge? id = none
  /-- An edge is removed on demand or, where the policy is to replace drivers, by another connection
      of its destination. -/
  removed : ∀ command id edge, session.design.edge? id = some edge →
    (session.step command).design.edge? id = none →
      (command = .disconnect id ∧ (session.perform command.run).1 = .ok .done) ∨
        ∃ destination source made, session.design.policy.replacement = .detach ∧
          command.joined? = some (destination, source) ∧
          (session.perform command.run).1 = .ok (.edge made) ∧
          edge.destination = some destination
  /-- The node that a command gives back is there. -/
  issued : ∀ command id, (session.perform (Command.run command)).1 = .ok (.node id) →
    ∃ node, (session.step command).design.node? id = some node
  /-- A node stays what it is. -/
  node : ∀ id node, session.design.node? id = some node →
    ∀ later, ∃ other, (session.run later).design.node? id = some other ∧ node.Remains other
  /-- A port keeps its direction unless it is turned around. -/
  turned : ∀ command id node other direction, session.design.node? id = some node →
    node.role? = some (.port direction) → (session.step command).design.node? id = some other →
      other.role? = some (.port direction) ∨
        (command = .flipPort id ∧
          (session.perform command.run).1 = .ok (.direction direction.flip) ∧
          other.role? = some (.port direction.flip))
  /-- All edges and all neighbours stay unless nodes are connected or disconnected. -/
  neighbours : ∀ command,
    ((session.step command).design.edge? = session.design.edge? ∧
      (session.step command).design.driver? = session.design.driver? ∧
      (session.step command).design.sinks = session.design.sinks) ∨
    (∃ reply, (session.perform command.run).1 = .ok reply) ∧
      (command.joined?.isSome = true ∨ ∃ id, command = .disconnect id)

/-- What a session with the right wiring and the right noted literals has given out and made is
    permanent. Each part is a fact about one command or about all designs that come later. -/
theorem Permanent.of_wired (hw : session.design.Wired) (hnotes : session.design.NotesLiterals) :
    session.Permanent where
  fresh command id h later again := edge_reply_ne hw h later
  edge id edge hedge later := edge?_run hw hedge later
  issued command id h := (effect_of_reply hw h).node_reply hnotes
  node id node hn later := (keeps_run hw later).node id node hn
  -- A refused command removes nothing, so that there is an effect, and it says why the edge is
  -- gone.
  removed command id edge hedge hgone := by
    rcases step_cases hw command with hsame | ⟨reply, hreply, heffect⟩
    · rw [hsame, hedge] at hgone
      exact absurd hgone (by simp)
    · rcases heffect.removes hw hedge hgone with
        ⟨hcommand, rfl⟩ | ⟨destination, source, made, hdetach, hj, rfl, hd⟩
      · exact .inl ⟨hcommand, hreply⟩
      · exact .inr ⟨destination, source, made, hdetach, hj, hreply, hd⟩
  turned command id node other direction hn hr hother := by
    rcases step_cases hw command with hsame | ⟨reply, hreply, heffect⟩
    · rw [hsame, hn] at hother
      obtain rfl := Option.some.inj hother
      exact .inl hr
    · rcases heffect.turns hn hr hother with hrole | ⟨hcommand, rfl, hrole⟩
      · exact .inl hrole
      · exact .inr ⟨hcommand, hreply, hrole⟩
  neighbours command := by
    rcases step_cases hw command with hsame | ⟨reply, hreply, heffect⟩
    · exact .inl (by rw [hsame]; exact ⟨rfl, rfl, rfl⟩)
    · -- Only a command of these two kinds can have to do with edges.
      by_cases hwires : command.joined?.isSome = true ∨ ∃ id, command = .disconnect id
      · exact .inr ⟨⟨reply, hreply⟩, hwires⟩
      · rw [not_or, Option.not_isSome_iff_eq_none] at hwires
        exact .inl (heffect.neighbours hw hwires.1 fun id h => hwires.2 ⟨id, h⟩)

/-- Behind every run from an empty design, all that there is is permanent. -/
theorem permanence_of_run (name : String) (policy : Policy) (earlier : List Command) :
    let session := (start name policy).run earlier
    session.design.policy = policy ∧ session.Permanent :=
  ⟨policy_run name policy earlier,
    .of_wired (wired_run name policy earlier) (.run name policy earlier)⟩

/-- A port drives a signal until the signal drives itself. Then the first edge is gone for ever, its
    place is not free, and the port can still be turned around. -/
theorem permanence_of_replaced_driver :
    let before := (start "top" .lenient).run
      [.port "a" .bit .input, .signal "b" .bit, .connect 1 0]
    ∃ port edge, before.design.node? 0 = some port ∧ before.design.edge? 0 = some edge ∧
      (∀ later again, (((before.step (.connect 1 1)).run later).perform (Command.run again)).1 ≠
        .ok (.edge 1)) ∧
      (∀ further, ((before.run [.connect 1 1]).run further).design.edge? 0 = none) ∧
      edge.destination = some 1 ∧
      (∃ copy, (before.step (.copy 1)).design.node? 2 = some copy) ∧
      (∀ later, ∃ other, (before.run later).design.node? 0 = some other ∧ port.Remains other) ∧
      ∃ other, (before.step (.flipPort 0)).design.node? 0 = some other ∧
        other.role? = some (.port .output) := by
  intro before
  obtain ⟨-, h⟩ := permanence_of_run "top" .lenient
    [.port "a" .bit .input, .signal "b" .bit, .connect 1 0]
  refine ⟨_, _, rfl, rfl, h.fresh _ 1 rfl, ?gone, ?destination, h.issued _ 2 rfl, h.node 0 _ rfl,
    _, rfl, ?turned⟩
  case gone =>
    refine (h.edge 0 _ rfl [.connect 1 1]).resolve_left fun hedge => ?_
    exact Option.some_ne_none _ hedge.symm
  case destination =>
    rcases h.removed (.connect 1 1) 0 _ rfl rfl with ⟨hne, -⟩ | ⟨_, _, _, -, hj, -, hd⟩
    · exact absurd hne (by decide)
    · obtain ⟨rfl, -⟩ := Prod.mk.inj (Option.some.inj hj)
      exact hd
  case turned =>
    rcases h.turned (.flipPort 0) 0 _ _ .input rfl rfl rfl with hr | ⟨-, -, hr⟩
    · exact absurd hr (by decide)
    · exact hr

end Session

end Schematic
