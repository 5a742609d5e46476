import Mathlib.Data.Set.Basic
import Mathlib.Order.Bounds.Defs
import Schematic.Proofs.Permanence

namespace Schematic

/-!
# Looking nodes up by name

A registry keeps the first node of each name, so that it answers as a search through the history of
all nodes would: how each came into being, and what it is called.

* `Design.registry`, `Design.names` — the two registries, and the names of the nodes in order;
* `Session.origins` — how the nodes have come into being that a run makes;
* `Design.bearers` — the nodes of one origin that bear a name;
* `Design.Recorded` — the registries agree with a history;
* `Design.Grows` — the history goes on. It does so with every effect (`Effect.grows`), and therefore
  with every run;
* `Session.find?_of_run` — what a look-up finds behind any run from an empty design.

The registries forget which nodes they have not entered, and a copy shares its name with a node that
came earlier. Therefore the invariant speaks of a history that is longer than any of them: one entry
for each node, with its origin and its name, in order. A registry then finds the first entry of its
kind and of the name, and what a look-up finds in the two registries one after the other is the
least bearer of either kind. That a name without an entry is borne by no node at all uses that every
copy has a template, whose name has an entry.
-/

/-- How the node has come into being that the command has made. It has made one if there are more
    nodes behind it. -/
def Command.made (command : Command) (design next : Design) : List Origin :=
  if design.nodeCount < next.nodeCount then command.origin?.toList else []

/-- How the nodes come into being that the commands make, in order. -/
def Session.origins (session : Session) : List Command → List Origin
  | [] => []
  | command :: commands =>
    let next := session.step command
    command.made session.design next.design ++ next.origins commands

namespace Design

variable {design next later : Design} {history : List (Origin × String)} {node : Node}

/-- The names of the nodes, in order. -/
def names (design : Design) : List String := design.nodes.toList.map (·.name)

/-- The first node of each name of the given kind. -/
def registry (design : Design) : Naming → Registry
  | .declared => design.declared
  | .derived => design.derived

/-- The nodes of the given origin that bear a name. -/
def bearers (design : Design) (origins : List Origin) (origin : Origin) (name : String) :
    Set NodeId :=
  {id | origins[id]? = some origin ∧ ∃ node, design.node? id = some node ∧ node.name = name}

/-! ### Names and registries -/

/-- The names stand in the places of their nodes. -/
theorem getElem?_names (design : Design) (id : NodeId) :
    design.names[id]? = (design.node? id).map (·.name) := by
  rw [names, List.getElem?_map, Array.getElem?_toList, node?]

/-- A node's name is among the names. -/
theorem mem_names {id : NodeId} (hn : design.node? id = some node) : node.name ∈ design.names :=
  List.mem_of_getElem? (by rw [getElem?_names, hn, Option.map_some])

/-- There are as many names as nodes. -/
@[simp] theorem length_names (design : Design) : design.names.length = design.nodeCount := by
  rw [names, List.length_map, Array.length_toList, nodeCount]

/-- A new node's name comes last, however it was chosen. -/
theorem names_insert (design : Design) (naming : Naming) (node : Node) :
    (design.insert naming node).names = design.names ++ [node.name] := by
  cases naming <;> simp [names, insert]

/-- A new node's name comes last, even if it is entered in no registry. -/
theorem names_insertUnnamed (design : Design) (node : Node) :
    (design.insertUnnamed node).names = design.names ++ [node.name] := by
  simp [names, insertUnnamed]

/-- Noting the literal of a truth value gives no node another name. -/
@[simp] theorem names_share (design : Design) (value : Bool) (id : NodeId) :
    (design.share value id).names = design.names := by
  rw [names, nodes_share, ← names]

/-- A new node is one more node. -/
theorem nodeCount_insert (design : Design) (naming : Naming) (node : Node) :
    (design.insert naming node).nodeCount = design.nodeCount + 1 := by
  rw [← length_names, names_insert, List.length_append, length_names, List.length_singleton]

/-- A new node that is entered in no registry is one more node. -/
theorem nodeCount_insertUnnamed (design : Design) (node : Node) :
    (design.insertUnnamed node).nodeCount = design.nodeCount + 1 := by
  rw [← length_names, names_insertUnnamed, List.length_append, length_names, List.length_singleton]

/-- Nodes keep their names, so that the names are the same where no node is new. The ids are the
    places in the list, and they do not move. -/
theorem Keeps.names_eq (h : design.Keeps next) (hc : next.nodeCount = design.nodeCount) :
    next.names = design.names := by
  refine List.ext_getElem? fun id => ?_
  rw [getElem?_names, getElem?_names]
  cases hn : design.node? id with
  | some node =>
    obtain ⟨other, ho, hsame⟩ := h.node id node hn
    rw [ho, Option.map_some, Option.map_some, hsame.name]
  | none =>
    -- Behind the last node of the one design, there is none in the other either.
    have hle : next.nodes.size ≤ id := by
      rw [node?, Array.getElem?_eq_none_iff] at hn
      exact Nat.le_trans (Nat.le_of_eq hc) hn
    rw [node?, Array.getElem?_eq_none hle]

/-- A new node is entered in the registry of its kind. -/
theorem registry_insert (design : Design) (naming other : Naming) (node : Node) :
    (design.insert naming node).registry other =
      if naming = other then (design.registry other).register node.name design.nodeCount
      else design.registry other := by
  cases naming <;> cases other <;> rfl

/-- Noting the literal of a truth value enters no name. -/
@[simp] theorem registry_share (design : Design) (value : Bool) (id : NodeId) :
    (design.share value id).registry = design.registry := by
  funext naming
  unfold share
  split <;> cases naming <;> rfl

/-- Where only nodes and edges change, the registries are the same. -/
theorem Rewires.registry (h : design.Rewires next) : next.registry = design.registry := by
  funext naming
  rw [h]
  cases naming <;> rfl

/-! ### The history of the nodes -/

/-- The registries answer as a search through the history of the nodes would. -/
structure Recorded (design : Design) (history : List (Origin × String)) : Prop where
  /-- The history tells the names of all nodes. -/
  names : history.map (·.2) = design.names
  /-- The first node of a name and of a kind is found. -/
  registry : ∀ naming name,
    (design.registry naming).find? name = history.findIdx? (· = (.made naming, name))
  /-- A name belongs to a node that is no copy. -/
  made : ∀ name ∈ design.names, ∃ naming, (.made naming, name) ∈ history

namespace Recorded

/-- A design without nodes has a history without entries. -/
theorem start (name : String) (policy : Policy) :
    (Session.start name policy).design.Recorded [] where
  names := rfl
  registry naming name := by cases naming <;> exact Registry.find?_empty name
  made _ h := absurd h List.not_mem_nil

/-- A history has one entry for each node. -/
theorem length_eq (h : design.Recorded history) : history.length = design.nodeCount := by
  rw [← length_names, ← h.names, List.length_map]

/-- A history stays one as long as names and registries do. -/
theorem congr (h : design.Recorded history) (hn : next.names = design.names)
    (hr : next.registry = design.registry) : next.Recorded history :=
  ⟨h.names.trans hn.symm, fun naming name => by rw [hr, h.registry], hn ▸ h.made⟩

/-- A new node comes last in the history, and is found if there is none before it. The registry of
    the other kind is not touched. -/
theorem insert (h : design.Recorded history) (naming : Naming) (node : Node) :
    (design.insert naming node).Recorded (history ++ [(.made naming, node.name)]) where
  names := by rw [List.map_append, h.names, names_insert, List.map_singleton]
  registry other name := by
    rw [registry_insert, List.findIdx?_append, ← h.registry, List.findIdx?_singleton, h.length_eq]
    by_cases hnaming : naming = other
    · subst hnaming
      simp [Registry.find?_register, eq_comm]
    · simp [hnaming]
  made name hmem := by
    rw [names_insert, List.mem_append, List.mem_singleton] at hmem
    rcases hmem with hold | rfl
    · obtain ⟨other, hother⟩ := h.made name hold
      exact ⟨other, List.mem_append_left _ hother⟩
    · exact ⟨naming, List.mem_append_right _ (List.mem_singleton_self _)⟩

/-- A copy is not found, since it is in no registry. It bears the name of a node that has been made,
    so that every name in use is still one that some node was made with. -/
theorem copy (h : design.Recorded history) {id : NodeId} (hn : design.node? id = some node) :
    (design.insertUnnamed node.detached).Recorded (history ++ [(.copied, node.name)]) where
  names := by
    rw [List.map_append, h.names, names_insertUnnamed, List.map_singleton, Node.name_detached]
  registry naming name := by
    rw [List.findIdx?_append, ← h.registry, List.findIdx?_singleton]
    have hr : (design.insertUnnamed node.detached).registry naming = design.registry naming := by
      cases naming <;> rfl
    simp [hr]
  made name hmem := by
    rw [names_insertUnnamed, List.mem_append, List.mem_singleton, Node.name_detached] at hmem
    -- The node that is copied bears the name already.
    have hold : name ∈ design.names := by
      rcases hmem with hold | rfl
      · exact hold
      · exact mem_names hn
    obtain ⟨naming, hmade⟩ := h.made name hold
    exact ⟨naming, List.mem_append_left _ hmade⟩

end Recorded

/-! ### The history goes on -/

/-- Every history of the design goes on to one of the next design, by nodes of the given origins. -/
def Grows (design : Design) (origins : List Origin) (next : Design) : Prop :=
  ∀ history, design.Recorded history →
    ∃ made, next.Recorded (history ++ made) ∧ made.map (·.1) = origins

namespace Grows

/-- Where names and registries are the same, the history goes on by nothing. -/
theorem of_eq (hn : next.names = design.names) (hr : next.registry = design.registry) :
    design.Grows [] next := by
  intro history h
  exact ⟨[], by rw [List.append_nil]; exact h.congr hn hr, rfl⟩

/-- A new node carries the history on by one entry of its kind. -/
theorem insert (design : Design) (naming : Naming) (node : Node) :
    design.Grows [.made naming] (design.insert naming node) :=
  fun _ h => ⟨_, h.insert naming node, rfl⟩

/-- A copy carries the history on by one entry of its own kind. -/
theorem copy {id : NodeId} (hn : design.node? id = some node) :
    design.Grows [.copied] (design.insertUnnamed node.detached) :=
  fun _ h => ⟨_, h.copy hn, rfl⟩

/-- A history that goes on twice goes on by the origins of both parts. -/
theorem trans {origins further : List Origin} (h : design.Grows origins next)
    (h' : next.Grows further later) : design.Grows (origins ++ further) later := by
  intro history hr
  obtain ⟨made, hmade, rfl⟩ := h history hr
  obtain ⟨more, hmore, rfl⟩ := h' _ hmade
  exact ⟨made ++ more, by rwa [← List.append_assoc], List.map_append⟩

end Grows

section Effects

variable {command : Command} {reply : Reply}

/-- A command behind which there are as many nodes as before has made none. -/
theorem made_of_nodeCount_eq (hc : next.nodeCount = design.nodeCount) :
    command.made design next = [] := by
  rw [Command.made, hc, if_neg (Nat.lt_irrefl _)]

/-- A command behind which there is one more node has made it, in the way in which it makes
    nodes. -/
theorem made_of_nodeCount_succ {origin : Origin} (hc : next.nodeCount = design.nodeCount + 1)
    (ho : command.origin? = some origin) : command.made design next = [origin] := by
  rw [Command.made, hc, if_pos (Nat.lt_succ_self _), ho, Option.toList_some]

/-- An effect carries the history on by the node that the command makes, if it makes one. Of all
    commands, only those that make a node have anything to do with names. -/
theorem Effect.grows (h : design.Effect command reply next) (hw : design.Wired) :
    design.Grows (command.made design next) next := by
  -- Where no node is new, the names and the registries are as they were.
  have quiet (hc : next.nodeCount = design.nodeCount) (hr : next.registry = design.registry) :
      design.Grows (command.made design next) next := by
    rw [made_of_nodeCount_eq hc]
    exact .of_eq ((h.reaches hw).keeps.names_eq hc) hr
  cases h with
  | made ho =>
    rw [made_of_nodeCount_succ (nodeCount_insert ..) ho]
    exact .insert _ _ _
  | @noted value =>
    have hc : ((design.insert .derived (Constant.bool value).literal).share value
        design.nodeCount).nodeCount = design.nodeCount + 1 := by
      rw [← length_names, names_share, length_names, nodeCount_insert]
    rw [made_of_nodeCount_succ hc rfl]
    exact (Grows.insert _ _ _).trans (.of_eq (names_share ..) (registry_share ..))
  | copied hn =>
    rw [made_of_nodeCount_succ (nodeCount_insertUnnamed ..) rfl]
    exact .copy hn
  | defined => exact quiet rfl (by funext naming; cases naming <;> rfl)
  | shared => exact quiet rfl rfl
  | turned => exact quiet (by simp [updateNode, nodeCount]) (by funext naming; cases naming <;> rfl)
  | connected => exact quiet (nodeCount_withDriver ..) (Rewires.withDriver ..).registry
  | disconnected => exact quiet (nodeCount_unlink ..) (Rewires.unlink ..).registry

end Effects

/-! ### What is found -/

namespace Recorded

/-- The bearers of a name of one origin are the entries of the history with both. -/
theorem mem_bearers (h : design.Recorded history) {origin : Origin} {name : String} {id : NodeId} :
    id ∈ design.bearers (history.map (·.1)) origin name ↔ history[id]? = some (origin, name) := by
  have hname : (∃ node, design.node? id = some node ∧ node.name = name) ↔
      history[id]?.map (·.2) = some name := by
    rw [← List.getElem?_map, h.names, getElem?_names, Option.map_eq_some_iff]
  rw [bearers, Set.mem_ofPred_eq, hname, List.getElem?_map]
  cases history[id]? <;> simp [Prod.ext_iff]

/-- A registry knows the first one of the nodes that bear a name and are of its kind. In the history
    this is the first place where the kind and the name are found together. -/
theorem find?_registry (h : design.Recorded history) {naming : Naming} {name : String}
    {id : NodeId} :
    (design.registry naming).find? name = some id ↔
      IsLeast (design.bearers (history.map (·.1)) (.made naming) name) id := by
  rw [h.registry, List.findIdx?_eq_some_iff_getElem]
  -- The search stops in the first place where the history tells of such a node.
  constructor
  · rintro ⟨hlt, hfirst, hbefore⟩
    refine ⟨h.mem_bearers.mpr ?_, fun other hother => ?_⟩
    · rw [List.getElem?_eq_getElem hlt, of_decide_eq_true hfirst]
    · by_contra hless
      obtain ⟨hother, heq⟩ := List.getElem?_eq_some_iff.mp (h.mem_bearers.mp hother)
      exact hbefore other (Nat.lt_of_not_le hless) (decide_eq_true heq)
  · rintro ⟨hmem, hleast⟩
    obtain ⟨hlt, heq⟩ := List.getElem?_eq_some_iff.mp (h.mem_bearers.mp hmem)
    refine ⟨hlt, decide_eq_true heq, fun other hless hother => ?_⟩
    refine absurd (hleast (h.mem_bearers.mpr ?_)) (Nat.not_le_of_lt hless)
    rw [List.getElem?_eq_getElem (Nat.lt_trans hless hlt), of_decide_eq_true hother]

/-- A registry knows a name exactly if a node of its kind bears it. Copies are of neither kind, and
    are not known to any registry. -/
theorem find?_registry_eq_none (h : design.Recorded history) {naming : Naming} {name : String} :
    (design.registry naming).find? name = none ↔
      design.bearers (history.map (·.1)) (.made naming) name = ∅ := by
  rw [h.registry, List.findIdx?_eq_none_iff, Set.eq_empty_iff_forall_notMem]
  simp only [h.mem_bearers, decide_eq_false_iff_not]
  -- Nothing is found by a search exactly if no entry is the one that is searched for.
  constructor
  · intro hnone id hid
    exact hnone _ (List.mem_of_getElem? hid) rfl
  · rintro hnone entry hmem rfl
    obtain ⟨id, hid⟩ := List.mem_iff_getElem?.mp hmem
    exact hnone id hid

/-- Nothing is found only if no node bears the name, not even a copy. The original of a copy bears
    the same name, and names are never given up. -/
theorem find?_eq_none (h : design.Recorded history) {name : String} :
    design.find? name = none ↔ ∀ id node, design.node? id = some node → node.name ≠ name := by
  have hfind : design.find? name = none ↔ ∀ naming, (design.registry naming).find? name = none := by
    rw [find?, Option.or_eq_none_iff]
    constructor
    · rintro ⟨hdeclared, hderived⟩ (_ | _)
      · exact hdeclared
      · exact hderived
    · exact fun hnone => ⟨hnone .declared, hnone .derived⟩
  rw [hfind]
  constructor
  · rintro hnone id node hn rfl
    -- The node may be a copy, but then there is one of that name which is none.
    obtain ⟨naming, hmade⟩ := h.made _ (mem_names hn)
    obtain ⟨place, hplace⟩ := List.mem_iff_getElem?.mp hmade
    have hempty := h.find?_registry_eq_none.mp (hnone naming)
    exact Set.eq_empty_iff_forall_notMem.mp hempty place (h.mem_bearers.mpr hplace)
  · intro hnone naming
    rw [h.find?_registry_eq_none, Set.eq_empty_iff_forall_notMem]
    rintro id ⟨-, node, hn, hname⟩
    exact hnone id node hn hname

end Recorded

end Design

/-! ### Runs -/

namespace Session

open Design

/-- The history goes on with every run, by the nodes that the run makes. A refused command makes
    none and adds nothing to it. -/
theorem grows_run {session : Session} (hw : session.design.Wired) (commands : List Command) :
    session.design.Grows (session.origins commands) (session.run commands).design := by
  -- With each command the origins begin with what it makes, and the rest is a run behind it.
  induction commands generalizing session with
  | nil => exact .of_eq rfl rfl
  | cons command commands ih =>
    have hstep : session.design.Grows (command.made session.design (session.step command).design)
        (session.step command).design := by
      rcases step_cases hw command with hsame | ⟨reply, -, heffect⟩
      · rw [hsame, made_of_nodeCount_eq rfl]
        exact .of_eq rfl rfl
      · exact heffect.grows hw
    exact hstep.trans (ih (wired_step hw command))

/-- A look-up finds the first node for which the name was chosen. If there is none, it finds the
    first one whose name was made up from a value or from operands. It never finds a copy, but it
    finds nothing only if no node bears the name, not even a copy. -/
theorem find?_of_run (name : String) (policy : Policy) (commands : List Command) (sought : String) :
    let design := ((start name policy).run commands).design
    let origins := (start name policy).origins commands
    let declared := design.bearers origins (.made .declared) sought
    let derived := design.bearers origins (.made .derived) sought
    origins.length = design.nodeCount ∧
    (∀ id, design.find? sought = some id ↔
      IsLeast declared id ∨ (declared = ∅ ∧ IsLeast derived id)) ∧
    (∀ id, design.find? sought = some id → origins[id]? ≠ some .copied) ∧
    (design.find? sought = none ↔
      ∀ id node, design.node? id = some node → node.name ≠ sought) := by
  intro design origins declared derived
  obtain ⟨history, hr, horigins : history.map (·.1) = origins⟩ :=
    grows_run (wired_start name policy) commands [] (.start name policy)
  rw [List.nil_append] at hr
  -- The registry of chosen names is asked first, and the other one only if it knows nothing.
  have hfind : ∀ id, design.find? sought = some id ↔
      IsLeast declared id ∨ (declared = ∅ ∧ IsLeast derived id) := by
    intro id
    rw [find?, Option.or_eq_some_iff]
    show (design.registry .declared).find? sought = some id ∨
      (design.registry .declared).find? sought = none ∧
        (design.registry .derived).find? sought = some id ↔ _
    rw [hr.find?_registry, hr.find?_registry_eq_none, hr.find?_registry, horigins]
  refine ⟨?_, hfind, ?_, hr.find?_eq_none⟩
  · rw [← hr.length_eq, ← horigins, List.length_map]
  · intro id hid hcopied
    rcases (hfind id).mp hid with ⟨⟨horigin, -⟩, -⟩ | ⟨-, ⟨horigin, -⟩, -⟩
    · exact absurd (horigin.symm.trans hcopied) (by simp)
    · exact absurd (horigin.symm.trans hcopied) (by simp)

/-- A chosen name is found before the same name made up earlier, and no copy of either. The second
    use of a truth value makes no node. -/
theorem find?_of_chosen_name :
    let commands : List Command :=
      [.literalOfString .bit "a", .copy 0, .boolLiteral true, .signal "a" .bit, .boolLiteral true,
        .copy 3]
    let design := ((start "top" .lenient).run commands).design
    let origins := (start "top" .lenient).origins commands
    origins = [.made .derived, .copied, .made .derived, .made .declared, .copied] ∧
      design.find? "a" = some 3 ∧ origins[3]? ≠ some .copied ∧
      design.find? "bool_true" = some 2 ∧ origins[2]? ≠ some .copied := by
  intro commands design origins
  have hcopied := fun sought => (find?_of_run "top" .lenient commands sought).2.2.1
  have ha : design.find? "a" = some 3 := by rfl
  have htrue : design.find? "bool_true" = some 2 := by rfl
  exact ⟨rfl, ha, hcopied "a" 3 ha, htrue, hcopied "bool_true" 2 htrue⟩

end Session

end Schematic
