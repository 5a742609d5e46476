import Schematic.Proofs.Building
import Schematic.Proofs.Connections

namespace Schematic

open Netlist Design

/-!
# Which netlists are built

* `Netlist.Buildable` — what a netlist has to fulfil to be built;
* `Netlist.Refusal` — the errors with which it is refused, each with its reason;
* `Builds.buildable` — a netlist that has been built fulfils it all;
* `Stops.refusal`, `Refusal.not_buildable` — where the building of a netlist stops, there is a
  reason, and it is something that the netlist does not fulfil;
* `Netlist.toDesign_ok_iff` — so that exactly the netlists that fulfil it all are built.

What a step needs is said of the design that the lines before it have left; what a netlist has to
fulfil is said of the netlist alone. The link is what the tables of a design contain at each point:
the names of the types, the names of the nodes and the destinations of the connections that have
been passed so far. If all steps are possible, each part of `Buildable` is read off the step of the
line that it is about. If one is not, its reason is read off in the same way, and this is a reason
that no buildable netlist gives. So the two cases exclude each other, and there is no third.
-/

namespace Netlist

variable {netlist : Netlist} {policy : Policy} {design typed populated : Design}
  {types : List TypeDecl} {error : Error}

/-- Whether a declaration of this form has to have a name. -/
def NodeForm.needsName : NodeForm → Bool
  | .parameter _ | .expression .. => true
  | .port _ | .signal => false

/-- The type is built in, or it is declared in the netlist. -/
def Knows (netlist : Netlist) (type : String) : Prop :=
  type ∈ ["bit", "boolean", "integer", "string"] ∨ type ∈ netlist.types.map (·.name)

/-- What a netlist has to fulfil to be built. -/
structure Buildable (netlist : Netlist) (policy : Policy) : Prop where
  /-- No two types are declared under one name. -/
  types_nodup : (netlist.types.map (·.name)).Nodup
  /-- No type is declared under the name of a built-in one. -/
  types_new : ∀ decl ∈ netlist.types, decl.name ∉ ["bit", "boolean", "integer", "string"]
  /-- Every parameter and every expression has a name. -/
  named : ∀ decl ∈ netlist.nodes, decl.form.needsName = true → decl.name ≠ none
  /-- No two nodes are declared under one name. -/
  names_nodup : (names netlist.nodes).Nodup
  /-- Every type that a declaration refers to is known. -/
  known : ∀ decl ∈ netlist.nodes, decl.form.isTyped = true → netlist.Knows decl.effectiveType
  /-- Every node that an expression refers to is declared above it. -/
  operands : ∀ earlier decl later, netlist.nodes = earlier ++ decl :: later →
    ∀ name, .node name ∈ decl.form.operands → name ∈ names earlier
  /-- Every node that a connection leads to is declared. -/
  destinations : ∀ connection ∈ netlist.connections, connection.destination ∈ names netlist.nodes
  /-- Every node that a connection comes from is declared. -/
  sources : ∀ connection ∈ netlist.connections,
    ∀ name, connection.source = .node name → name ∈ names netlist.nodes
  /-- If second drivers are refused, no two connections lead to one node. -/
  single : policy.replacement = .reject → (netlist.connections.map (·.destination)).Nodup

/-- The errors with which a netlist is refused, each with its reason. -/
inductive Refusal (netlist : Netlist) (policy : Policy) : Error → Prop
  /-- A type is declared under the name of a built-in one or of one above it. -/
  | duplicateType {earlier later : List TypeDecl} {decl : TypeDecl}
      (hsplit : netlist.types = earlier ++ decl :: later)
      (h : decl.name ∈ ["bit", "boolean", "integer", "string"] ∨
        decl.name ∈ earlier.map (·.name)) :
      Refusal netlist policy (.duplicateType decl.name)
  /-- A parameter or an expression has no name. -/
  | unnamed {decl : NodeDecl} (hmem : decl ∈ netlist.nodes)
      (hneeds : decl.form.needsName = true) (h : decl.name = none) :
      Refusal netlist policy
        (.grammar decl.line (.unnamed (if decl.form.isTyped then .param else .expr)))
  /-- A node is declared under the name of one above it. -/
  | duplicateNode {earlier later : List NodeDecl} {decl : NodeDecl} {name : String}
      (hsplit : netlist.nodes = earlier ++ decl :: later)
      (hname : decl.effectiveName = .ok name) (h : name ∈ names earlier) :
      Refusal netlist policy (.duplicateNode name)
  /-- A declaration refers to a type that is not known. -/
  | unknownType {decl : NodeDecl} (hmem : decl ∈ netlist.nodes)
      (htyped : decl.form.isTyped = true) (h : ¬ netlist.Knows decl.effectiveType) :
      Refusal netlist policy (.unknownType decl.effectiveType decl.line)
  /-- An expression refers to a node that is not declared above it. -/
  | operand {earlier later : List NodeDecl} {decl : NodeDecl} {name : String}
      (hsplit : netlist.nodes = earlier ++ decl :: later)
      (hoperand : .node name ∈ decl.form.operands) (h : name ∉ names earlier) :
      Refusal netlist policy (.nodeNotFound name)
  /-- A connection leads to a node that is not declared. -/
  | destination {connection : Connection} (hmem : connection ∈ netlist.connections)
      (h : connection.destination ∉ names netlist.nodes) :
      Refusal netlist policy (.nodeNotFound connection.destination)
  /-- A connection comes from a node that is not declared. -/
  | source {connection : Connection} {name : String} (hmem : connection ∈ netlist.connections)
      (hsource : connection.source = .node name) (h : name ∉ names netlist.nodes) :
      Refusal netlist policy (.nodeNotFound name)
  /-- Second drivers are refused, and a connection leads to a node that one above it leads to. -/
  | alreadyDriven {earlier later : List Connection} {connection : Connection} {edge : String}
      (hreject : policy.replacement = .reject)
      (hsplit : netlist.connections = earlier ++ connection :: later)
      (h : connection.destination ∈ earlier.map (·.destination)) :
      Refusal netlist policy (.alreadyDriven connection.destination edge)

/-! ### Reasons -/

/-- In a list without repetitions, no member comes a second time behind itself. -/
theorem not_mem_earlier {α κ : Type} {key : α → κ} {xs earlier later : List α} {x : α}
    (h : (xs.map key).Nodup) (hsplit : xs = earlier ++ x :: later) : key x ∉ earlier.map key := by
  rw [hsplit, List.map_append, List.map_cons, List.nodup_middle, List.nodup_cons] at h
  exact fun hmem => h.1 (List.mem_append_left _ hmem)

/-- Every reason is something that the netlist does not fulfil: for each kind of reason there is one
    condition that it contradicts. -/
theorem Refusal.not_buildable (h : netlist.Refusal policy error) : ¬ netlist.Buildable policy := by
  intro hb
  cases h with
  | @duplicateType earlier later decl hsplit h =>
    rcases h with h | h
    · exact hb.types_new decl (by simp [hsplit]) h
    · exact not_mem_earlier hb.types_nodup hsplit h
  | @unnamed decl hmem hneeds h => exact hb.named decl hmem hneeds h
  | @duplicateNode earlier later decl name hsplit hname h =>
    -- The name stands among those from above and again in its own place.
    have hnames : names netlist.nodes = names earlier ++ name :: names later := by
      rw [hsplit]
      simp [names, NodeDecl.name?_eq_some.mpr hname]
    have hnodup := hb.names_nodup
    rw [hnames, List.nodup_middle, List.nodup_cons] at hnodup
    exact hnodup.1 (List.mem_append_left _ h)
  | @unknownType decl hmem htyped h => exact h (hb.known decl hmem htyped)
  | operand hsplit hoperand h => exact h (hb.operands _ _ _ hsplit _ hoperand)
  | @destination connection hmem h => exact h (hb.destinations connection hmem)
  | @source connection name hmem hsource h => exact h (hb.sources connection hmem name hsource)
  | alreadyDriven hreject hsplit h => exact not_mem_earlier (hb.single hreject) hsplit h

/-! ### Types -/

/-- A type is known to a table exactly if it is built in or declared there. -/
theorem find?_types_isSome (table : TypeTable) (name : String) :
    (table.find? name).isSome = true ↔
      name ∈ ["bit", "boolean", "integer", "string"] ∨ name ∈ table.declared.map (·.name) := by
  rw [TypeTable.find?_isSome, TypeTable.declared?, List.find?_isSome, List.mem_map]
  simp only [TypeTable.reserved, decide_eq_true_eq]

/-- The type that is declared. -/
def TypeDecl.type (decl : TypeDecl) : DataType := ⟨decl.name, decl.shape⟩

/-- The types of the design are those of the declarations passed so far, in their order. A
    definition that is accepted puts one type behind the others. -/
theorem types_declared (h : Chain DefinesType (netlist.blank policy) types typed) :
    typed.types.declared = types.map (·.type) := by
  induction h with
  | nil => rfl
  | @concat types decl mid next _ hx ih =>
    obtain ⟨hdef⟩ := hx
    rw [TypeTable.define_eq] at hdef
    split at hdef
    case isTrue => exact absurd hdef (by simp)
    case isFalse =>
      obtain ⟨-, rfl⟩ := Prod.mk.inj (Except.ok.inj hdef)
      simp [ih, TypeDecl.type]

/-- The name of a type is taken if it is the name of a built-in type or of an earlier one. -/
theorem find?_typed_isSome (h : Chain DefinesType (netlist.blank policy) types typed)
    (name : String) :
    (typed.types.find? name).isSome = true ↔
      name ∈ ["bit", "boolean", "integer", "string"] ∨ name ∈ types.map (·.name) := by
  rw [find?_types_isSome, types_declared h, List.map_map]
  rfl

/-- No two types that have been declared have the same name, since the definition of the second one
    would have found the first one in the table. -/
theorem types_nodup (h : Chain DefinesType (netlist.blank policy) types typed) :
    (types.map (·.name)).Nodup := by
  rw [← List.filterMap_eq_map]
  apply h.nodup
  rintro earlier decl mid behind _ hchain hx ⟨⟩ hmem
  rw [List.filterMap_eq_map] at hmem
  exact hx.find?_eq_none ((find?_typed_isSome hchain decl.name).mpr (.inr hmem))

/-! ### Names -/

/-- A declaration that needs a name and has none is refused for this, and there is nothing else for
    which the choice of a name could fail. -/
theorem effectiveName_eq_error {decl : NodeDecl} (h : decl.effectiveName = .error error) :
    decl.form.needsName = true ∧ decl.name = none ∧
      error = .grammar decl.line (.unnamed (if decl.form.isTyped then .param else .expr)) := by
  unfold NodeDecl.effectiveName at h
  -- The first three cases give a name.
  split at h
  case h_4 hname hform =>
    obtain rfl := Except.error.inj h
    exact ⟨by rw [hform]; rfl, hname, by rw [hform]; rfl⟩
  case h_5 hname hform =>
    obtain rfl := Except.error.inj h
    exact ⟨by rw [hform]; rfl, hname, by rw [hform]; rfl⟩
  all_goals exact absurd h (by simp)

/-- A declaration that needs a name and has none is not known under any name. -/
theorem effectiveName_ne_ok {decl : NodeDecl} (hneeds : decl.form.needsName = true)
    (hname : decl.name = none) (name : String) : decl.effectiveName ≠ .ok name := by
  intro h
  unfold NodeDecl.effectiveName at h
  split at h
  case h_1 hsome => exact absurd (hname.symm.trans hsome) (by simp)
  case h_2 hform => rw [hform] at hneeds; exact absurd hneeds (by simp [NodeForm.needsName])
  case h_3 hform => rw [hform] at hneeds; exact absurd hneeds (by simp [NodeForm.needsName])
  all_goals exact absurd h (by simp)

/-! ### Built netlists -/

/-- A netlist that has been built fulfils everything that it has to. For each condition, the chain
    is cut at the line that the condition is about, and the step there has checked it against what
    stands above. -/
theorem Builds.buildable (h : netlist.Builds policy design) : netlist.Buildable policy := by
  obtain @⟨typed, populated, htypes, hnodes, hconnections⟩ := h
  have hdeclared := (typed_keeps htypes).2.1
  have hpopulated := populated_of_chains htypes hnodes
  -- Each condition is one that the steps of the lines concerned have made sure of.
  constructor
  case types_nodup => exact types_nodup htypes
  case types_new =>
    intro decl hmem hbuiltin
    obtain ⟨earlier, mid, behind, hchain, hx⟩ := htypes.step_of_mem hmem
    exact hx.find?_eq_none ((find?_typed_isSome hchain decl.name).mpr (.inl hbuiltin))
  case named =>
    intro decl hmem hneeds hnone
    obtain ⟨earlier, mid, behind, -, hname, -⟩ := hnodes.step_of_mem hmem
    exact effectiveName_ne_ok hneeds hnone _ hname
  case names_nodup => exact names_nodup hnodes hdeclared
  case known =>
    intro decl hmem htyped
    obtain ⟨earlier, mid, behind, hchain, -, -, hmakes⟩ := hnodes.step_of_mem hmem
    have hfound := hmakes.find?_type htyped
    rw [(populated_keeps hchain).2.1] at hfound
    exact (find?_typed_isSome htypes _).mp hfound
  case operands =>
    intro earlier decl later hsplit name hoperand
    obtain ⟨mid, behind, hchain, -, -, hmakes⟩ := hnodes.step_of_split hsplit
    exact (find?_declared_isSome hchain hdeclared name).mp (hmakes.find?_operand hoperand)
  case destinations =>
    intro connection hmem
    obtain ⟨earlier, mid, behind, hchain, hx⟩ := hconnections.step_of_mem hmem
    rw [← hpopulated.names, ← declared_of_connects hchain]
    exact hx.find?_destination
  case sources =>
    intro connection hmem name hsource
    obtain ⟨earlier, mid, behind, hchain, hx⟩ := hconnections.step_of_mem hmem
    rw [← hpopulated.names, ← declared_of_connects hchain]
    exact hx.find?_source hsource
  case single =>
    intro hreject
    refine destinations_nodup hconnections hpopulated.consistent hpopulated.edgeTable_eq ?_
    rw [hpopulated.policy_eq, hreject]

/-! ### Refused netlists -/

/-- A type that is refused is built in, or has been declared above. -/
theorem refusal_of_types
    (h : Breaks DefinesType RefusesType (netlist.blank policy) netlist.types error) :
    netlist.Refusal policy error := by
  obtain ⟨hsplit, hchain, ⟨htaken⟩⟩ := h
  exact .duplicateType hsplit ((find?_typed_isSome hchain _).mp htaken)

/-- A node that is refused has no name, or a name from above, or it refers to something that is not
    known. -/
theorem refusal_of_nodes (htypes : Chain DefinesType (netlist.blank policy) netlist.types typed)
    (h : Breaks DeclaresNode RefusesNode typed netlist.nodes error) :
    netlist.Refusal policy error := by
  obtain ⟨hsplit, hchain, hx⟩ := h
  have hmem := hsplit ▸ List.mem_append_right _ List.mem_cons_self
  -- The names that are taken at this point are those of the declarations above.
  have hnames := find?_declared_isSome hchain (typed_keeps htypes).2.1
  cases hx with
  | unnamed h =>
    obtain ⟨hneeds, hname, rfl⟩ := effectiveName_eq_error h
    exact .unnamed hmem hneeds hname
  | taken hname h => exact .duplicateNode hsplit hname ((hnames _).mp h)
  | type htyped h =>
    refine .unknownType hmem htyped ?_
    rw [Knows, ← find?_typed_isSome htypes, ← (populated_keeps hchain).2.1, h]
    simp
  | @operand name hoperand h =>
    refine .operand hsplit hoperand ?_
    rw [← hnames, h]
    simp

/-- A connection that is refused has an end that is not declared, or it is a second one to its
    destination where this is not allowed. -/
theorem refusal_of_connections (hp : netlist.Populated policy populated)
    (h : Breaks Connects RefusesConnection populated netlist.connections error) :
    netlist.Refusal policy error := by
  obtain @⟨earlier, later, connection, mid, hsplit, hchain, hx⟩ := h
  have hmem := hsplit ▸ List.mem_append_right _ List.mem_cons_self
  -- Connections declare nothing, so that a name that is missing here is missing in the netlist.
  have hmissing : ∀ {name}, mid.declared.find? name = none → name ∉ names netlist.nodes := by
    intro name hnone
    rw [← hp.names, ← declared_of_connects hchain, hnone]
    simp
  cases hx with
  | destination h => exact .destination hmem (hmissing h)
  | source hsource h => exact .source hmem hsource (hmissing h)
  | driven hd hn hreject hi =>
    rw [policy_of_connects hchain, hp.policy_eq] at hreject
    have hc := consistent_of_connects hchain hp.consistent
    have hnamed := (hc.catalogued _ _).mp hd
    have hdriven := input_isSome hchain hp.consistent hp.edgeTable_eq hnamed hn
    exact .alreadyDriven hreject hsplit (hdriven.mp hi)

/-- Where the building of a netlist stops, there is a reason. -/
theorem Stops.refusal (h : netlist.Stops policy error) : netlist.Refusal policy error := by
  cases h with
  | types h => exact refusal_of_types h
  | nodes htypes h => exact refusal_of_nodes htypes h
  | connections htypes hnodes h =>
    exact refusal_of_connections (populated_of_chains htypes hnodes) h

/-- Exactly the netlists that fulfil everything are built, and a netlist that is not built is
    refused for a reason: a type or a node is declared twice, a parameter or an expression has no
    name, a type or a node is not known, or a node would get a second driver and must not. -/
theorem toDesign_ok_iff (netlist : Netlist) (policy : Policy) :
    ((∃ design, netlist.toDesign policy = .ok design) ↔ netlist.Buildable policy) ∧
      ∀ error, netlist.toDesign policy = .error error → netlist.Refusal policy error := by
  have hstops : ∀ error, netlist.toDesign policy = .error error → netlist.Refusal policy error :=
    fun error h => (stops_of_toDesign h).refusal
  refine ⟨⟨?_, fun hb => ?_⟩, hstops⟩
  · rintro ⟨design, h⟩
    exact (builds_of_toDesign h).buildable
  · -- A netlist that is refused lacks something, and this one does not.
    cases h : netlist.toDesign policy with
    | ok design => exact ⟨design, rfl⟩
    | error error => exact absurd hb (hstops error h).not_buildable

/-- A second driver is refused or takes the place of the first one, as the policy says. Here it is
    even the same node a second time, which makes no difference. -/
theorem refusal_of_second_driver :
    let netlist : Netlist :=
      { nodes := [⟨some "a", .signal, some "bit", 1⟩],
        connections := [⟨"a", .node "a", 2⟩, ⟨"a", .node "a", 3⟩] }
    netlist.Buildable .lenient ∧ ¬ netlist.Buildable .strict ∧
      netlist.toDesign .strict = .error (.alreadyDriven "a" "a_to_a") ∧
      netlist.Refusal .strict (.alreadyDriven "a" "a_to_a") := by
  intro netlist
  have hok : ∃ design, netlist.toDesign .lenient = .ok design := ⟨_, rfl⟩
  have herror : netlist.toDesign .strict = .error (.alreadyDriven "a" "a_to_a") := rfl
  obtain ⟨hiff, hrefusal⟩ := toDesign_ok_iff netlist .strict
  refine ⟨(toDesign_ok_iff netlist .lenient).1.mp hok, fun hb => ?_, herror, hrefusal _ herror⟩
  obtain ⟨design, h⟩ := hiff.mpr hb
  exact absurd (herror.symm.trans h) (by simp)

end Netlist

end Schematic
