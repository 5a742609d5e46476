import Schematic.Proofs.Outcomes

namespace Schematic

open Netlist

/-!
# Building a netlist

The edits of a netlist take the steps of its lines, and fail only where a step is not possible.

* `Design.RefusesType`, `RefusesNode`, `RefusesConnection` — why a line is refused, and the error;
* `Session.ends_defineType`, `ends_declare`, `ends_wire` — each line takes its step or is refused;
* `Netlist.Builds` — the steps of all lines lead to a design;
* `Netlist.Stops` — the steps lead to a line that is refused;
* `Netlist.builds_of_toDesign`, `stops_of_toDesign` — building a netlist does one of these.

Both outcomes are followed at once. Each edit is shown to end in a step of its line or in a refusal
of it, with the reason, so that no success and no failure is left out; the lemmas are put together
like the edits, by the rules for sequences and loops. The loop over the declarations hands its scope
on, and the invariant is that this is the design's own table of chosen names. What the edits add to
the journal is not looked at here.
-/

namespace Design

/-! ### Refusals -/

/-- A type is refused if its name is taken. -/
inductive RefusesType (design : Design) (decl : TypeDecl) : Error → Prop
  | taken (h : (design.types.find? decl.name).isSome = true) :
      RefusesType design decl (.duplicateType decl.name)

/-- A node is refused if it has no name or a name that is taken, or if it refers to a type or to a
    node that does not exist so far. -/
inductive RefusesNode (design : Design) (decl : NodeDecl) : Error → Prop
  | unnamed {error : Error} (h : decl.effectiveName = .error error) : RefusesNode design decl error
  | taken {name : String} (hname : decl.effectiveName = .ok name)
      (h : (design.declared.find? name).isSome = true) :
      RefusesNode design decl (.duplicateNode name)
  | type (ht : decl.form.isTyped = true) (h : design.types.find? decl.effectiveType = none) :
      RefusesNode design decl (.unknownType decl.effectiveType decl.line)
  | operand {name : String} (hmem : .node name ∈ decl.form.operands)
      (h : design.declared.find? name = none) : RefusesNode design decl (.nodeNotFound name)

/-- A connection is refused if it refers to a node that does not exist, or if its destination is
    driven already and drivers are not replaced. -/
inductive RefusesConnection (design : Design) (connection : Connection) : Error → Prop
  | destination (h : design.declared.find? connection.destination = none) :
      RefusesConnection design connection (.nodeNotFound connection.destination)
  | source {name : String} (hs : connection.source = .node name)
      (h : design.declared.find? name = none) :
      RefusesConnection design connection (.nodeNotFound name)
  | driven {id : NodeId} {node : Node} {edge : String}
      (hd : design.declared.find? connection.destination = some id)
      (hn : design.node? id = some node) (hp : design.policy.replacement = .reject)
      (hi : node.input.isSome = true) :
      RefusesConnection design connection (.alreadyDriven connection.destination edge)

end Design

namespace Session

open Design

variable {session : Session} {decl : NodeDecl} {name : String}

/-! ### Types -/

/-- A type is declared, or its name is taken. The table of types is the only part of the design that
    either outcome is about. -/
theorem ends_defineType (session : Session) (decl : TypeDecl) :
    session.Ends (discard (Edit.defineType decl.name decl.shape))
      (fun _ next => session.design.DefinesType decl next.design)
      (session.design.RefusesType decl) := by
  apply Ends.discard
  have hp := perform_defineType session decl.name decl.shape
  cases hdef : session.design.types.define decl.name decl.shape with
  | ok result =>
    rw [hdef] at hp
    exact .of_ok hp (.mk hdef)
  | error error =>
    rw [hdef] at hp
    -- A declaration is refused for its name only.
    refine .of_error hp ?_
    rw [TypeTable.define_eq] at hdef
    split at hdef
    case isTrue htaken =>
      obtain rfl := Except.error.inj hdef
      exact .taken htaken
    case isFalse => exact absurd hdef (by simp)

/-- A declaration finds the type that it refers to, or the type is not known. Nothing changes in
    either case. -/
theorem ends_declaredType (session : Session) (decl : NodeDecl) :
    session.Ends (Edit.declaredType decl)
      (fun type next => session.design.types.find? decl.effectiveType = some type ∧ next = session)
      (fun error => session.design.types.find? decl.effectiveType = none ∧
        error = .unknownType decl.effectiveType decl.line) := by
  cases ht : session.design.types.find? decl.effectiveType with
  | some type => exact .of_ok (by simp [Edit.declaredType, ht]) ⟨rfl, rfl⟩
  | none =>
    have hp : session.perform (Edit.declaredType decl) =
        (.error (.unknownType decl.effectiveType decl.line), session) := by
      simp [Edit.declaredType, ht]
    exact .of_error hp ⟨rfl, rfl⟩

/-! ### Operands -/

/-- A name is found in the scope, or it is not declared so far. Nothing changes in either case. -/
theorem ends_declared (session : Session) (scope : Registry) (name : String) :
    session.Ends (Edit.declared scope name)
      (fun id next => scope.find? name = some id ∧ next = session)
      (fun error => scope.find? name = none ∧ error = .nodeNotFound name) := by
  cases hf : scope.find? name with
  | some id => exact .of_ok (by simp [Edit.declared, hf]) ⟨rfl, rfl⟩
  | none =>
    have hp : session.perform (Edit.declared scope name) = (.error (.nodeNotFound name), session) :=
      by simp [Edit.declared, hf]
    exact .of_error hp ⟨rfl, rfl⟩

/-- The literal of a constant is supplied, without any condition. -/
theorem ends_constant {fails : Error → Prop} (session : Session) (value : Constant) :
    session.Ends (Edit.constant value)
      (fun id next => session.design.Supplies value id next.design) fails := by
  obtain ⟨id, next, journal, hs, hp⟩ := perform_constant session value
  exact .of_ok hp hs

/-- An operand is resolved, or it is a name that is not declared so far. -/
theorem ends_operand (session : Session) (operand : Operand) :
    session.Ends (Edit.operand session.design.declared operand)
      (fun id next => session.design.Resolves operand id next.design)
      (fun error => ∃ name, operand = .node name ∧ session.design.declared.find? name = none ∧
        error = .nodeNotFound name) := by
  cases operand with
  | constant value => exact (ends_constant session value).imp_ok fun _ _ h => .constant h
  | node name =>
    refine (ends_declared session _ name).imp ?_ fun error h => ⟨name, rfl, h⟩
    rintro id session ⟨hf, rfl⟩
    exact .node hf

/-! ### Nodes -/

/-- The edit makes the node and returns its place. -/
def EndsWith (session : Session) (edit : Edit NodeId) (node : Node) : Prop :=
  ∃ journal, session.perform edit =
    (.ok session.design.nodeCount, { design := session.design.insert .declared node, journal })

/-- A port or a signal is made without a check. -/
theorem endsWith_insert (session : Session) (node : Node) :
    session.EndsWith (Edit.insert .declared node) node := ⟨_, perform_insert ..⟩

/-- A parameter is made if its default is a literal, which it always is when it has just been
    supplied. -/
theorem endsWith_parameter {type : DataType} {default : Option NodeId}
    (h : session.design.Admits (.ofRole name type (.parameter default))) :
    session.EndsWith (Edit.parameter name type default)
      (.ofRole name type (.parameter default)) := by
  rcases perform_parameter session name type default with ⟨-, hp⟩ | ⟨hnot, -⟩
  · exact ⟨_, hp⟩
  · exact absurd h hnot

/-- An expression is made if its operands are there, which they are when they have just been
    resolved. -/
theorem endsWith_namedExpression {op : Operator} {lhs rhs : NodeId} {left right : Node}
    (hl : session.design.node? lhs = some left) (hr : session.design.node? rhs = some right) :
    session.EndsWith (Edit.namedExpression name op lhs rhs)
      (.ofRole name left.type (.expression op lhs rhs)) := by
  have hp := perform_namedExpression session name op lhs rhs
  rw [hl, hr] at hp
  exact ⟨_, hp⟩

/-- What is left to do once everything is there that the node of a declaration refers to. -/
theorem EndsWith.makes {design : Design} {edit : Edit NodeId} {node : Node}
    {fails : Error → Prop} (h : session.EndsWith edit node)
    (hmakes : design.Makes decl name decl.form session.design node) :
    session.Ends edit
      (fun id next => ∃ mid node, design.Makes decl name decl.form mid node ∧
        id = mid.nodeCount ∧ next.design = mid.insert .declared node) fails := by
  obtain ⟨journal, hp⟩ := h
  exact .of_ok hp ⟨_, _, hmakes, rfl, rfl⟩

/-- The node of a declaration is made, or the declaration refers to something that does not exist so
    far. -/
theorem ends_declareAs (hc : session.design.Consistent) (decl : NodeDecl) (name : String) :
    session.Ends (Edit.declareAs session.design.declared decl name)
      (fun id next => ∃ mid node, session.design.Makes decl name decl.form mid node ∧
        id = mid.nodeCount ∧ next.design = mid.insert .declared node)
      (session.design.RefusesNode decl) := by
  have htype : decl.form.isTyped = true →
      session.Ends (Edit.declaredType decl)
        (fun type next => session.design.types.find? decl.effectiveType = some type ∧
          next = session) (session.design.RefusesNode decl) := by
    intro htyped
    refine (ends_declaredType session decl).imp_fails ?_
    rintro error ⟨ht, rfl⟩
    exact .type htyped ht
  have hmissing : ∀ operand ∈ decl.form.operands, ∀ error,
      (∃ name, operand = .node name ∧ session.design.declared.find? name = none ∧
        error = .nodeNotFound name) → session.design.RefusesNode decl error := by
    rintro _ hmem _ ⟨name, rfl, hnone, rfl⟩
    exact .operand hmem hnone
  unfold Edit.declareAs
  cases hform : decl.form with
  | port direction =>
    refine (htype (by rw [hform]; rfl)).bind ?_
    rintro type session ⟨ht, rfl⟩
    rw [← hform]
    exact (endsWith_insert session _).makes (by rw [hform]; exact .port ht)
  | signal =>
    refine (htype (by rw [hform]; rfl)).bind ?_
    rintro type session ⟨ht, rfl⟩
    rw [← hform]
    exact (endsWith_insert session _).makes (by rw [hform]; exact .signal ht)
  | parameter default =>
    refine (htype (by rw [hform]; rfl)).bind ?_
    rintro type session ⟨ht, rfl⟩
    -- The literal of the default comes first, and then the parameter that refers to it.
    have hdefault : session.Ends (default.mapM Edit.constant)
        (fun id next => session.design.Makes decl name decl.form next.design
          (.ofRole name type (.parameter id))) (session.design.RefusesNode decl) := by
      rw [hform]
      cases default with
      | none => exact .of_ok (perform_pure session none) (.parameter ht)
      | some value => exact Ends.map ((ends_constant session value).imp_ok fun _ _ => .default ht)
    refine hdefault.bind fun id mid hmakes => ?_
    rw [← hform]
    exact (endsWith_parameter (hmakes.admits hc.notes)).makes hmakes
  | expression op lhs rhs =>
    have hlhs : lhs ∈ decl.form.operands := by rw [hform]; exact List.mem_cons_self
    have hrhs : rhs ∈ decl.form.operands := by
      rw [hform]
      exact List.mem_cons_of_mem lhs List.mem_cons_self
    refine ((ends_operand session lhs).imp_fails (hmissing lhs hlhs)).bind fun left mid hl => ?_
    have hright := ends_operand mid rhs
    rw [hl.addsLiterals.declared] at hright
    refine (hright.imp_fails (hmissing rhs hrhs)).bind fun right last hr => ?_
    obtain ⟨leftNode, hleft⟩ := hl.exists_node hc
    obtain ⟨rightNode, hrightNode⟩ := hr.exists_node (hc.addsLiterals hl.addsLiterals)
    -- The literal of the right operand does not touch the left one.
    have hleft' := hr.addsLiterals.nodes hleft
    rw [← hform]
    refine (endsWith_namedExpression hleft' hrightNode).makes ?_
    rw [hform]
    exact .expression hl hr hleft' hrightNode

/-- A declaration takes its step and enters the new node in the scope, or it is refused. -/
theorem ends_declare (hc : session.design.Consistent) (decl : NodeDecl) :
    session.Ends (Edit.declare session.design.declared decl)
      (fun scope next => session.design.DeclaresNode decl next.design ∧
        scope = next.design.declared)
      (session.design.RefusesNode decl) := by
  have hfirst : session.Ends (MonadExcept.ofExcept decl.effectiveName)
      (fun name next => decl.effectiveName = .ok name ∧ next = session)
      (session.design.RefusesNode decl) := by
    cases h : decl.effectiveName with
    | ok name => exact .of_ok (perform_ofExcept ..) ⟨rfl, rfl⟩
    | error error => exact .of_error (perform_ofExcept ..) (.unnamed h)
  unfold Edit.declare
  refine hfirst.bind ?_
  rintro name session ⟨hname, rfl⟩
  cases hnew : session.design.declared.find? name with
  | some id =>
    simp only [Option.isSome_some, if_true]
    exact .of_error rfl (.taken hname (by rw [hnew]; rfl))
  | none =>
    simp only [Option.isSome_none, Bool.false_eq_true, if_false]
    refine (ends_declareAs hc decl name).bind ?_
    rintro id next ⟨mid, node, hmakes, rfl, hnext⟩
    refine .of_ok (perform_pure ..) ⟨hnext ▸ .mk hname hnew hmakes, ?_⟩
    -- The scope and the design enter the new node under the same name in the same place.
    rw [hnext, ← hmakes.addsLiterals.declared, ← hmakes.name_eq]
    rfl

/-! ### Connections -/

/-- A connection is made, unless its destination is driven already and drivers are not replaced.
    The two nodes are there, and the destination is no literal, so that nothing else can be in
    the way. -/
theorem ends_connect {source destination : NodeId} {driver driven : Node}
    (hw : session.design.Wired) (hs : session.design.node? source = some driver)
    (hd : session.design.node? destination = some driven) (hl : driven.isLiteral = false) :
    session.Ends (discard (Edit.connect destination source))
      (fun _ next => (session.design.policy.replacement = .detach ∨ driven.input = none) ∧
        next.design = session.design.withDriver destination source driver driven)
      (fun error => session.design.policy.replacement = .reject ∧ driven.input.isSome = true ∧
        ∃ edge, error = .alreadyDriven driven.name edge) := by
  apply Ends.discard
  -- What decides is the policy, and then whether the destination has a driver.
  cases hp : session.design.policy.replacement with
  | detach =>
    obtain ⟨journal, h⟩ := perform_connect hw hs hd hl (.inl hp)
    exact .of_ok h ⟨.inl rfl, rfl⟩
  | reject =>
    cases hi : driven.input with
    | none =>
      obtain ⟨journal, h⟩ := perform_connect hw hs hd hl (.inr hi)
      exact .of_ok h ⟨.inr rfl, rfl⟩
    | some place =>
      exact .of_error (perform_connect_of_reject hs hd hl hp hi) ⟨rfl, rfl, _, rfl⟩

/-- A connection takes its step or is refused. The destination is looked up first, then the source
    is resolved, and only then the edge is made. -/
theorem ends_wire (hc : session.design.Consistent) (connection : Connection) :
    session.Ends (Edit.wire session.design.declared connection)
      (fun _ next => session.design.Connects connection next.design)
      (session.design.RefusesConnection connection) := by
  have hdestination : session.Ends (Edit.declared session.design.declared connection.destination)
      (fun id next => session.design.declared.find? connection.destination = some id ∧
        next = session) (session.design.RefusesConnection connection) := by
    refine (ends_declared session _ _).imp_fails ?_
    rintro error ⟨hnone, rfl⟩
    exact .destination hnone
  refine hdestination.bind ?_
  rintro destination session ⟨hd, rfl⟩
  have hsource : session.Ends (Edit.operand session.design.declared connection.source)
      (fun id next => session.design.Resolves connection.source id next.design)
      (session.design.RefusesConnection connection) := by
    refine (ends_operand session connection.source).imp_fails ?_
    rintro error ⟨name, hs, hnone, rfl⟩
    exact .source hs hnone
  refine hsource.bind fun source mid hs => ?_
  -- The literal of a constant source comes before the look at the destination, and does not change
  -- it.
  have hadds := hs.addsLiterals
  obtain ⟨driven, hdriven, hl, hname⟩ := (hc.catalogued _ _).mp hd
  obtain ⟨driver, hdriver⟩ := hs.exists_node hc
  refine (ends_connect (hc.addsLiterals hadds).wired hdriver (hadds.nodes hdriven) hl).imp ?_ ?_
  · rintro _ next ⟨hfree, hnext⟩
    rw [hnext]
    exact .mk hd hs hdriver (hadds.nodes hdriven) hl hfree
  · rintro error ⟨hp, hi, edge, rfl⟩
    rw [hname]
    exact .driven hd hdriven (hadds.policy ▸ hp) hi

/-! ### All lines of a kind -/

/-- The types are declared one after the other, up to the end or to one that is refused. -/
theorem ends_types (session : Session) (types : List TypeDecl) :
    session.Ends (types.forM fun decl => discard (Edit.defineType decl.name decl.shape))
      (fun _ next => Chain DefinesType session.design types next.design)
      (Breaks DefinesType RefusesType session.design types) := by
  refine .forM (fun _ => True) (fun {session} decl _ => ?_) types trivial
  exact (ends_defineType session decl).imp_ok fun _ _ h => ⟨h, trivial⟩

/-- The scope of a loop over declarations is always the design's own table of chosen names. -/
theorem ends_nodes (hc : session.design.Consistent) (nodes : List NodeDecl) :
    session.Ends (nodes.foldlM Edit.declare session.design.declared)
      (fun scope next => Chain DeclaresNode session.design nodes next.design ∧
        scope = next.design.declared ∧ next.design.Consistent)
      (Breaks DeclaresNode RefusesNode session.design nodes) := by
  refine .foldlM (fun scope design => scope = design.declared ∧ design.Consistent)
    (fun {session _} decl hinv => ?_) nodes ⟨rfl, hc⟩
  obtain ⟨rfl, hc⟩ := hinv
  refine (ends_declare hc decl).imp_ok ?_
  rintro scope next ⟨hstep, hscope⟩
  exact ⟨hstep, hscope, hstep.consistent hc⟩

/-- Connections declare nothing, so that the scope stays right. Each is made in the scope that the
    nodes have left, and in a design that is still consistent. -/
theorem ends_connections (hc : session.design.Consistent) (connections : List Connection) :
    session.Ends (connections.forM (Edit.wire session.design.declared))
      (fun _ next => Chain Connects session.design connections next.design)
      (Breaks Connects RefusesConnection session.design connections) := by
  refine .forM (fun design => design.declared = session.design.declared ∧ design.Consistent)
    (fun {current} connection hinv => ?_) connections ⟨rfl, hc⟩
  obtain ⟨hscope, hc⟩ := hinv
  rw [← hscope]
  refine (ends_wire hc connection).imp_ok fun _ next hstep => ?_
  exact ⟨hstep, hstep.declared, hstep.consistent hc⟩

end Session

/-! ### The whole netlist -/

namespace Netlist

open Design

variable {netlist : Netlist} {policy : Policy} {design typed populated : Design}
  {types : List TypeDecl} {nodes : List NodeDecl} {error : Error}

/-- The design that the building of a netlist starts from. -/
def blank (netlist : Netlist) (policy : Policy) : Design :=
  (Session.start netlist.designName policy).design

/-- The steps of all lines of the netlist lead to the design. -/
inductive Builds (netlist : Netlist) (policy : Policy) (design : Design) : Prop
  | mk {typed populated : Design}
      (htypes : Chain DefinesType (netlist.blank policy) netlist.types typed)
      (hnodes : Chain DeclaresNode typed netlist.nodes populated)
      (hconnections : Chain Connects populated netlist.connections design)

/-- The steps of the netlist lead to a line that is refused with the error. -/
inductive Stops (netlist : Netlist) (policy : Policy) (error : Error) : Prop
  /-- One of the types is refused. -/
  | types (h : Breaks DefinesType RefusesType (netlist.blank policy) netlist.types error)
  /-- One of the nodes is refused. -/
  | nodes {typed : Design} (htypes : Chain DefinesType (netlist.blank policy) netlist.types typed)
      (h : Breaks DeclaresNode RefusesNode typed netlist.nodes error)
  /-- One of the connections is refused. -/
  | connections {typed populated : Design}
      (htypes : Chain DefinesType (netlist.blank policy) netlist.types typed)
      (hnodes : Chain DeclaresNode typed netlist.nodes populated)
      (h : Breaks Connects RefusesConnection populated netlist.connections error)

/-! ### What the lines keep -/

/-- Building starts from a design in which everything agrees. -/
theorem blank_consistent (netlist : Netlist) (policy : Policy) :
    (netlist.blank policy).Consistent := .start ..

/-- Declarations of types change nothing but the types, so that behind them there is still no node
    and no edge. -/
theorem typed_eq (h : Chain DefinesType (netlist.blank policy) types typed) :
    ∃ table, typed = { netlist.blank policy with types := table } := by
  induction h with
  | nil => exact ⟨_, rfl⟩
  | concat _ hx ih =>
    obtain ⟨-⟩ := hx
    obtain ⟨table, rfl⟩ := ih
    exact ⟨_, rfl⟩

/-- Behind the types, the policy is the given one, and there are neither names nor edges. -/
theorem typed_keeps (h : Chain DefinesType (netlist.blank policy) types typed) :
    typed.policy = policy ∧ typed.declared = {} ∧ typed.edgeTable = #[] := by
  obtain ⟨table, rfl⟩ := typed_eq h
  exact ⟨rfl, rfl, rfl⟩

/-- Declarations of nodes keep the policy, the types and the edges. -/
theorem populated_keeps (h : Chain DeclaresNode typed nodes populated) :
    populated.policy = typed.policy ∧ populated.types = typed.types ∧
      populated.edgeTable = typed.edgeTable :=
  ⟨h.eq_start DeclaresNode.policy, h.eq_start DeclaresNode.types,
    h.eq_start DeclaresNode.edgeTable⟩

/-- What the lines for nodes and connections keep up holds of a built design, if it holds of one
    that has types alone. -/
theorem Builds.keep {p : Design → Prop} (h : netlist.Builds policy design)
    (hp : KeptByBuilding p) (hstart : ∀ types, p { netlist.blank policy with types }) :
    p design := by
  obtain ⟨htypes, hnodes, hconnections⟩ := h
  obtain ⟨types, rfl⟩ := typed_eq htypes
  exact hconnections.keep hp.connects (hnodes.keep hp.declaresNode (hstart types))

/-- What the loop over the connections starts from. -/
structure Populated (netlist : Netlist) (policy : Policy) (design : Design) : Prop where
  /-- The wiring, the literals of truth values and the chosen names are right. -/
  consistent : design.Consistent
  /-- The policy is the given one. -/
  policy_eq : design.policy = policy
  /-- There are no edges. -/
  edgeTable_eq : design.edgeTable = #[]
  /-- The chosen names are those of the declarations. -/
  names : ∀ name, (design.declared.find? name).isSome = true ↔ name ∈ names netlist.nodes

/-- Behind the declarations of types and nodes, everything agrees, there are no edges, and the
    chosen names are those of the declarations. -/
theorem populated_of_chains (htypes : Chain DefinesType (netlist.blank policy) netlist.types typed)
    (hnodes : Chain DeclaresNode typed netlist.nodes populated) :
    netlist.Populated policy populated := by
  obtain ⟨hpolicy, hdeclared, hedges⟩ := typed_keeps htypes
  obtain ⟨hpolicy', -, hedges'⟩ := populated_keeps hnodes
  have hc := htypes.keep DefinesType.consistent (netlist.blank_consistent policy)
  exact ⟨hnodes.keep DeclaresNode.consistent hc, hpolicy'.trans hpolicy, hedges'.trans hedges,
    find?_declared_isSome hnodes hdeclared⟩

/-! ### Both outcomes -/

/-- Building a netlist takes the steps of all its lines, or stops at one that is refused. The types
    come first, then the nodes, then the connections, each with the chains of the earlier ones at
    hand. -/
theorem ends_build (netlist : Netlist) (policy : Policy) :
    (Session.start netlist.designName policy).Ends (Edit.build netlist)
      (fun _ next => netlist.Builds policy next.design) (netlist.Stops policy) := by
  have htypes := Session.ends_types (.start netlist.designName policy) netlist.types
  refine (htypes.imp_fails fun _ h => .types h).bind fun _ typed htypes => ?_
  have hc := htypes.keep DefinesType.consistent (netlist.blank_consistent policy)
  have hnodes := Session.ends_nodes hc netlist.nodes
  rw [(typed_keeps htypes).2.1] at hnodes
  refine (hnodes.imp_fails fun _ h => .nodes htypes h).bind ?_
  rintro _ populated ⟨hnodes, rfl, hc⟩
  have hconnections := Session.ends_connections hc netlist.connections
  refine (hconnections.imp_fails fun _ h => .connections htypes hnodes h).bind ?_
  -- What is left is an entry in the journal.
  intro _ built hconnections
  exact .of_ok rfl (.mk htypes hnodes hconnections)

/-- A netlist that is built takes the steps of all its lines. From here on, a built design is known
    by its chains of steps. -/
theorem builds_of_toDesign (h : netlist.toDesign policy = .ok design) :
    netlist.Builds policy design := by
  have hends := netlist.ends_build policy
  unfold toDesign build at h
  unfold Session.Ends at hends
  -- The outcome of the edit is that of the netlist, with the design taken from the session.
  split at hends
  case h_1 _ next hp =>
    rw [hp] at h
    obtain rfl := Except.ok.inj h
    exact hends
  case h_2 _ _ hp =>
    rw [hp] at h
    exact absurd h (by simp [Except.map])

/-- A netlist that is refused takes the steps of its lines up to one that is refused with this
    error. -/
theorem stops_of_toDesign {error : Error} (h : netlist.toDesign policy = .error error) :
    netlist.Stops policy error := by
  have hends := netlist.ends_build policy
  unfold toDesign build at h
  unfold Session.Ends at hends
  split at hends
  case h_1 _ next hp =>
    rw [hp] at h
    exact absurd h (by simp [Except.map])
  case h_2 _ _ hp =>
    rw [hp] at h
    obtain rfl := Except.error.inj h
    exact hends

end Netlist

end Schematic
