import Schematic.Proofs.Building
import Schematic.Proofs.Connections
import Schematic.Proofs.Validation

namespace Schematic

open Netlist

/-!
# Resolved parameters

A parameter gets its value from its driver, and otherwise from its default. In a built design, the
parameters without a default are those that are declared so.

* `Design.Wants` — there is a parameter of some name without a default;
* `Netlist.Builds.wants_iff` — in a built design, these are the declared ones;
* `Wired.unresolved_iff` — a parameter is unresolved if it has neither a driver nor a default;
* `Wired.validate_eq` — the verdict on a design with the right wiring;
* `Wired.validate_eq_ok` — when a design with the right wiring passes the whole check;
* `Netlist.Builds.unresolvedPlaces_eq_nil` — when a built design has no unresolved parameter.

Whether a parameter without a default is there is followed through the building: literals and
connections make no parameters, and a declaration makes one exactly if it says so. Whether it has a
driver is known from the connections. The check of a design looks at parameters in the order of
their places and asks nothing else of a design with the right wiring, so that its verdict is a
function of the list of unresolved ones.
-/

namespace Design

variable {design next : Design} {name other : String} {id : NodeId} {node : Node}

/-- There is a parameter of the name that has no default. -/
def Wants (design : Design) (name : String) : Prop :=
  ∃ id node, design.node? id = some node ∧ node.role? = some (.parameter none) ∧ node.name = name

/-! ### Parameters without a default -/

/-- A parameter without a default stays one as long as nodes do. -/
theorem Extends.wants (h : design.Extends next) (hw : design.Wants name) : next.Wants name := by
  obtain ⟨id, node, hn, hr, rfl⟩ := hw
  obtain ⟨other, ho, hdet⟩ := h id node hn
  exact ⟨id, other, ho, by rw [Node.congr_detached Node.role?_detached hdet, hr],
    Node.congr_detached Node.name_detached hdet⟩

/-- New literals are no parameters. -/
theorem AddsLiterals.wants_iff (h : design.AddsLiterals next) :
    next.Wants name ↔ design.Wants name := by
  constructor
  · rintro ⟨id, node, hn, hr, hname⟩
    exact ⟨id, node, h.fresh hn (Node.isLiteral_of_role? hr), hr, hname⟩
  · exact h.toExtends.wants

/-- A new node is a parameter without a default under its name, or it makes no difference. A name is
    wanted as soon as one node of it wants a value. -/
theorem wants_insert (design : Design) (naming : Naming) (node : Node) :
    (design.insert naming node).Wants name ↔
      (node.role? = some (.parameter none) ∧ node.name = name) ∨ design.Wants name := by
  constructor
  · rintro ⟨id, found, hn, hr, rfl⟩
    rw [node?_insert] at hn
    split at hn
    case isTrue =>
      obtain rfl := Option.some.inj hn
      exact .inl ⟨hr, rfl⟩
    case isFalse => exact .inr ⟨id, found, hn, hr, rfl⟩
  · rintro (⟨hr, rfl⟩ | h)
    · exact ⟨design.nodeCount, node, by rw [node?_insert, if_pos rfl], hr, rfl⟩
    · exact (Extends.insert design naming node).wants h

/-- The node of a declaration is a parameter without a default if it is declared so. -/
theorem Makes.role?_eq_parameter {decl : NodeDecl} {form : NodeForm}
    (h : design.Makes decl name form next node) :
    node.role? = some (.parameter none) ↔ form = .parameter none := by
  cases h <;> simp [Node.role?, Node.ofRole]

/-- A declaration adds a parameter without a default exactly if it declares one, under the name that
    it gives or that is made up for it. -/
theorem DeclaresNode.wants_iff {decl : NodeDecl} (h : design.DeclaresNode decl next) :
    next.Wants other ↔
      (decl.form = .parameter none ∧ decl.effectiveName = .ok other) ∨ design.Wants other := by
  obtain ⟨hname, -, hmakes⟩ := h
  rw [wants_insert, hmakes.role?_eq_parameter, hmakes.addsLiterals.wants_iff, hmakes.name_eq, hname,
    Except.ok.injEq]

/-- A connection makes no parameter, and leaves every parameter its default. What it changes is
    whether a parameter is driven, which is not asked here. -/
theorem Connects.wants_iff {connection : Connection} (h : design.Connects connection next) :
    next.Wants name ↔ design.Wants name := by
  obtain @⟨destination, source, mid, driver, driven, -, hs, -, -, -, -⟩ := h
  have hext := Extends.withDriver mid destination source driver driven
  rw [← hs.addsLiterals.wants_iff]
  -- With a driver there are as many nodes as before, so that each of them is an old one.
  constructor
  · rintro ⟨id, node, hn, hr, rfl⟩
    obtain ⟨old, ho, hdet⟩ := hext.detached_of_nodeCount_eq (nodeCount_withDriver ..) hn
    exact ⟨id, old, ho, by rw [← Node.congr_detached Node.role?_detached hdet, hr],
      (Node.congr_detached Node.name_detached hdet).symm⟩
  · exact hext.wants

/-- Behind declarations, the parameters without a default are those from before and those that are
    declared so. By induction on the declarations from the last one. -/
theorem wants_of_nodes {start : Design} {nodes : List NodeDecl}
    (h : Chain DeclaresNode start nodes next) :
    next.Wants name ↔
      (∃ decl ∈ nodes, decl.form = .parameter none ∧ decl.effectiveName = .ok name) ∨
        start.Wants name := by
  induction h with
  | nil => simp
  | concat _ hx ih =>
    rw [hx.wants_iff, ih, ← or_assoc]
    simp only [List.mem_append, List.mem_singleton, or_and_right, exists_or, exists_eq_left,
      or_comm]

/-- Connections make no parameter, however many there are. -/
theorem wants_of_connects {start : Design} {connections : List Connection}
    (h : Chain Connects start connections next) : next.Wants name ↔ start.Wants name :=
  iff_of_eq (h.eq_start fun hx => propext hx.wants_iff)

/-! ### Values of parameters -/

/-- A driver has a source, so that a parameter is unresolved only for want of a driver and of a
    default. -/
theorem Wired.unresolved_iff (hw : design.Wired) (hn : design.node? id = some node) :
    (node.tag = .parameter ∧ design.resolve? node = none) ↔
      node.role? = some (.parameter none) ∧ node.input = none := by
  -- A connected edge has a source, so that an input is as good as a value.
  have hsource : ∀ place, node.input = some place → design.source? place ≠ none := by
    intro place hi
    obtain ⟨edge, hedge, -⟩ := hw.edge?_of_input hn hi
    obtain ⟨source, driver, hs, -⟩ := (hw.joins edge (mem_edges.mpr ⟨place, hedge⟩)).source
    rw [source?, hedge, Option.bind_some, hs]
    simp
  obtain ⟨_, _, value | ⟨role, pins⟩⟩ := node
  · simp [Node.tag, Node.role?]
  · cases role with
    | port | signal | expression => simp [Node.tag, Role.tag, Node.role?]
    | parameter default =>
      cases hi : pins.input with
      | none => simp [Node.tag, Role.tag, Node.role?, resolve?, Node.input, hi]
      | some place =>
        have hne := hsource place hi
        simp [Node.tag, Role.tag, Node.role?, resolve?, Node.input, hi, hne]

/-- No parameter is unresolved if those without a default are driven. A parameter with a default has
    a value in any case. -/
theorem Wired.unresolvedPlaces_eq_nil (hw : design.Wired) :
    design.unresolvedPlaces = [] ↔
      ∀ id node, design.node? id = some node → node.role? = some (.parameter none) →
        node.input.isSome = true := by
  rw [unresolvedPlaces, placesWhere, List.filter_eq_nil_iff]
  constructor
  · intro h id node hn hr
    by_contra hi
    refine h (id, node) (mem_places.mpr hn) (decide_eq_true ?_)
    exact (hw.unresolved_iff hn).mpr ⟨hr, by simpa using hi⟩
  · rintro h ⟨id, node⟩ hmem hun
    have hn := mem_places.mp hmem
    obtain ⟨hr, hi⟩ := (hw.unresolved_iff hn).mp (of_decide_eq_true hun)
    have hdriven := h id node hn hr
    rw [hi] at hdriven
    exact absurd hdriven (by simp)

/-- With the right wiring, the check refuses the first unresolved parameter where the policy does
    not allow any, and otherwise gives a warning for each of them and for each signal without a
    driver. -/
theorem Wired.validate_eq (hw : design.Wired) :
    design.validate =
      match design.policy.allowUnresolved, design.unresolvedPlaces with
      | false, (_, node) :: _ => .error (.unresolvedParameter node.name)
      | _, _ => .ok design.warnings := by
  have hvalidate : design.validate =
      design.checkParameters >>= fun _ => pure design.warnings := by
    rw [validate, hw.checkWiring]
    rfl
  rw [hvalidate, checkParameters]
  cases design.policy.allowUnresolved with
  | true => rfl
  | false => cases design.unresolvedPlaces <;> rfl

/-- With the right wiring, only an unresolved parameter can be found, and only where the policy asks
    for it. -/
theorem Wired.validate_eq_ok (hw : design.Wired) :
    (∃ warnings, design.validate = .ok warnings) ↔
      design.policy.allowUnresolved = true ∨ design.unresolvedPlaces = [] := by
  rw [hw.validate_eq]
  cases design.policy.allowUnresolved with
  | true => simp
  | false => cases design.unresolvedPlaces <;> simp

end Design

/-! ### Built designs -/

namespace Netlist

open Design

variable {netlist : Netlist} {policy : Policy} {design : Design}

/-- The parameters without a default are those that are declared without one. -/
theorem Builds.wants_iff (h : netlist.Builds policy design) (name : String) :
    design.Wants name ↔
      ∃ decl ∈ netlist.nodes, decl.form = .parameter none ∧ decl.effectiveName = .ok name := by
  obtain @⟨typed, populated, htypes, hnodes, hconnections⟩ := h
  obtain ⟨table, rfl⟩ := typed_eq htypes
  have hstart : ¬ { netlist.blank policy with types := table }.Wants name := by
    rintro ⟨id, node, hn, -⟩
    exact absurd hn (by simp [node?, blank, Session.start])
  rw [wants_of_connects hconnections, wants_of_nodes hnodes, or_iff_left hstart]

/-- A built design has the policy that it has been built under. -/
theorem Builds.policy_eq (h : netlist.Builds policy design) : design.policy = policy := by
  obtain ⟨htypes, hnodes, hconnections⟩ := h
  rw [policy_of_connects hconnections, (populated_of_chains htypes hnodes).policy_eq]

/-- A built design is wired, whatever the netlist is. -/
theorem Builds.wired (h : netlist.Builds policy design) : design.Wired := by
  obtain ⟨htypes, hnodes, hconnections⟩ := h
  exact (consistent_of_connects hconnections (populated_of_chains htypes hnodes).consistent).wired

/-- A built design has no unresolved parameter if there is a connection to every parameter that is
    declared without a default. -/
theorem Builds.unresolvedPlaces_eq_nil (h : netlist.Builds policy design) :
    design.unresolvedPlaces = [] ↔
      ∀ decl ∈ netlist.nodes, decl.form = .parameter none →
        ∀ name, decl.effectiveName = .ok name → name ∈ netlist.connections.map (·.destination) := by
  have hwants := h.wants_iff
  have hwired := h.wired
  obtain ⟨htypes, hnodes, hconnections⟩ := h
  have hp := populated_of_chains htypes hnodes
  rw [hwired.unresolvedPlaces_eq_nil]
  -- A parameter without a default and its declaration have the name in common, under which the
  -- connections to it are found.
  constructor
  · intro hdriven decl hmem hform name hname
    obtain ⟨id, node, hn, hr, rfl⟩ := (hwants name).mpr ⟨decl, hmem, hform, hname⟩
    have hnamed : design.Named node.name id := ⟨node, hn, Node.isLiteral_of_role? hr, rfl⟩
    have hi := hdriven id node hn hr
    exact (input_isSome hconnections hp.consistent hp.edgeTable_eq hnamed hn).mp hi
  · intro hall id node hn hr
    obtain ⟨decl, hmem, hform, hname⟩ := (hwants node.name).mp ⟨id, node, hn, hr, rfl⟩
    have hnamed : design.Named node.name id := ⟨node, hn, Node.isLiteral_of_role? hr, rfl⟩
    refine (input_isSome hconnections hp.consistent hp.edgeTable_eq hnamed hn).mpr ?_
    exact hall decl hmem hform node.name hname

end Netlist

end Schematic
