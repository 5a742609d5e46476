import Mathlib.Data.List.Nodup
import Schematic.Proofs.Literals

namespace Schematic

open Netlist

/-!
# The construction of a design

What each line of a netlist does to the design, as a relation between the design before it and the
design behind it, and what all lines together keep up.

* `Chain`, `Breaks` — the steps of a list of lines, one after the other, up to its end or to a line
  that is refused;
* `DefinesType`, `DeclaresNode`, `Connects` — the steps of the three kinds of line;
* `Consistent` — the wiring is right, and the literals noted for truth values and the chosen names
  lead to the right nodes. Every step keeps this up;
* `find?_declared_isSome` — the chosen names are the names of the lines passed so far;
* `KeptByBuilding` — any other property that the lines for nodes and connections keep up, by what
  these lines are made of.

The edits of a netlist carry a session, a journal and a scope along. The relations here leave all of
this out: a step relates a design to the next one, and says what the line needs and what it adds.
They are made of each other like the lines, from constants over operands and declarations up to the
netlist, and so are the facts about them. A property of built designs is proved by one lemma for
each relation that it has to pass, or, if it is of the kind `KeptByBuilding`, by saying that new
literals, declared nodes and new drivers do it no harm.
-/

namespace Netlist

/-- The name of a declared node, if it has one. -/
def NodeDecl.name? (decl : NodeDecl) : Option String := decl.effectiveName.toOption

/-- The names of the declared nodes. -/
def names (nodes : List NodeDecl) : List String := nodes.filterMap (·.name?)

/-- Whether a declaration of this form refers to a type. -/
def NodeForm.isTyped : NodeForm → Bool
  | .expression .. => false
  | _ => true

/-- The operands in a declaration of this form. -/
def NodeForm.operands : NodeForm → List Operand
  | .expression _ lhs rhs => [lhs, rhs]
  | _ => []

/-- A declaration has a name if this is the name that is chosen or made up for it. -/
theorem NodeDecl.name?_eq_some {decl : NodeDecl} {name : String} :
    decl.name? = some name ↔ decl.effectiveName = .ok name := by
  unfold NodeDecl.name?
  cases decl.effectiveName <;> simp [Except.toOption]

/-- The name of one more declaration comes last. -/
theorem names_concat {decl : NodeDecl} {name : String} (nodes : List NodeDecl)
    (h : decl.effectiveName = .ok name) : names (nodes ++ [decl]) = names nodes ++ [name] := by
  simp [names, NodeDecl.name?_eq_some.mpr h]

end Netlist

namespace Design

variable {design mid next : Design} {id source : NodeId} {name : String} {node : Node}

/-! ### Steps -/

/-- Steps from one design to another, one for each member of a list. -/
inductive Chain {α : Type} (step : Design → α → Design → Prop) (start : Design) :
    List α → Design → Prop
  /-- No step. -/
  | nil : Chain step start [] start
  /-- One more step. -/
  | concat {xs : List α} {x : α} {mid next : Design} (h : Chain step start xs mid)
      (hx : step mid x next) : Chain step start (xs ++ [x]) next

/-- The steps of a list lead to a member that is refused with an error. -/
inductive Breaks {α : Type} (step : Design → α → Design → Prop)
    (refuses : Design → α → Error → Prop) (start : Design) (xs : List α) (error : Error) : Prop
  | mk {earlier later : List α} {x : α} {mid : Design} (hsplit : xs = earlier ++ x :: later)
      (h : Chain step start earlier mid) (hx : refuses mid x error)

/-- What every step keeps up holds at the end, if it holds at the start. This is how single steps
    are turned into a whole netlist. -/
theorem Chain.keep {α : Type} {step : Design → α → Design → Prop} {inv : Design → Prop}
    {start : Design} {xs : List α} (h : Chain step start xs next)
    (hstep : ∀ {mid x next}, step mid x next → inv mid → inv next) (hstart : inv start) :
    inv next := by
  induction h with
  | nil => exact hstart
  | concat _ hx ih => exact hstep hx ih

/-- What no step touches is the same at the end as at the start. -/
theorem Chain.eq_start {α β : Type} {step : Design → α → Design → Prop} {start : Design}
    {xs : List α} {part : Design → β} (h : Chain step start xs next)
    (hstep : ∀ {mid x next}, step mid x next → part next = part mid) : part next = part start :=
  h.keep (fun hx ih => (hstep hx).trans ih) rfl

/-- Every member of the list has its step, behind the steps of the members before it. A chain grows
    at its end, so that the induction goes back from there to the member. -/
theorem Chain.step_of_split {α : Type} {step : Design → α → Design → Prop} {start : Design}
    {xs earlier later : List α} {x : α} (h : Chain step start xs next)
    (hsplit : xs = earlier ++ x :: later) :
    ∃ mid behind, Chain step start earlier mid ∧ step mid x behind := by
  induction h generalizing later with
  | nil => exact absurd hsplit (by simp)
  | @concat xs y mid next hchain hx ih =>
    -- The member is the last one of the list, or it stands in the part before that.
    rcases List.eq_nil_or_concat later with rfl | ⟨later, last, rfl⟩
    · obtain ⟨rfl, hy⟩ := List.append_inj' hsplit rfl
      obtain rfl : y = x := List.head_eq_of_cons_eq hy
      exact ⟨mid, next, hchain, hx⟩
    · rw [List.concat_eq_append, ← List.cons_append, ← List.append_assoc] at hsplit
      exact ih (List.append_inj' hsplit rfl).1

/-- Every member of the list has its step, somewhere between the start and the end. -/
theorem Chain.step_of_mem {α : Type} {step : Design → α → Design → Prop} {start : Design}
    {xs : List α} {x : α} (h : Chain step start xs next) (hmem : x ∈ xs) :
    ∃ earlier mid behind, Chain step start earlier mid ∧ step mid x behind := by
  obtain ⟨earlier, later, hsplit⟩ := List.append_of_mem hmem
  obtain ⟨mid, behind, hchain, hx⟩ := h.step_of_split hsplit
  exact ⟨earlier, mid, behind, hchain, hx⟩

/-- What the step of a member brings about holds at the end, if the later steps leave it so. -/
theorem Chain.holds_of_mem {α : Type} {step : Design → α → Design → Prop}
    {inv : Design → Prop} {holds : α → Design → Prop} {start : Design} {xs : List α} {x : α}
    (h : Chain step start xs next)
    (hinv : ∀ {mid y behind}, step mid y behind → inv mid → inv behind) (hstart : inv start)
    (hmade : ∀ {mid y behind}, step mid y behind → inv mid → holds y behind)
    (hkept : ∀ {mid y z behind}, step mid y behind → holds z mid → holds z behind)
    (hmem : x ∈ xs) : holds x next := by
  induction h with
  | nil => exact absurd hmem List.not_mem_nil
  | concat hchain hx ih =>
    rcases List.mem_append.mp hmem with hmem | hmem
    · exact hkept hx (ih hmem)
    · obtain rfl := List.mem_singleton.mp hmem
      exact hmade hx (hchain.keep hinv hstart)

/-- No key comes twice if no step repeats the key of an earlier one. Members without a key do not
    count. -/
theorem Chain.nodup {α κ : Type} {step : Design → α → Design → Prop} {start : Design}
    {xs : List α} {key : α → Option κ} (h : Chain step start xs next)
    (hnew : ∀ {earlier x mid behind k}, Chain step start earlier mid → step mid x behind →
      key x = some k → k ∉ earlier.filterMap key) : (xs.filterMap key).Nodup := by
  induction h with
  | nil => exact List.nodup_nil
  | @concat xs x mid next hchain hx ih =>
    rw [List.filterMap_append]
    cases hk : key x with
    | none => simpa [hk] using ih
    | some k =>
      have hlast : [x].filterMap key = [k] := by simp [hk]
      rw [hlast, ← List.concat_eq_append, List.nodup_concat]
      exact ⟨hnew hchain hx hk, ih⟩

/-- A type is declared. -/
inductive DefinesType (design : Design) (decl : TypeDecl) : Design → Prop
  | mk {type : DataType} {types : TypeTable}
      (h : design.types.define decl.name decl.shape = .ok (type, types)) :
      DefinesType design decl { design with types }

/-- The node that an operand stands for, and the design that has it. -/
inductive Resolves (design : Design) : Operand → NodeId → Design → Prop
  /-- A declared node. -/
  | node {name : String} {id : NodeId} (h : design.declared.find? name = some id) :
      Resolves design (.node name) id design
  /-- The literal of a constant. -/
  | constant {value : Constant} {id : NodeId} {next : Design}
      (h : design.Supplies value id next) : Resolves design (.constant value) id next

/-- The node that a declaration makes under a name, by the form of the declaration, and the design
    that has all that the node refers to. -/
inductive Makes (design : Design) (decl : NodeDecl) (name : String) :
    NodeForm → Design → Node → Prop
  | port {type : DataType} {direction : Direction}
      (ht : design.types.find? decl.effectiveType = some type) :
      Makes design decl name (.port direction) design (.ofRole name type (.port direction))
  | signal {type : DataType} (ht : design.types.find? decl.effectiveType = some type) :
      Makes design decl name .signal design (.ofRole name type .signal)
  /-- A parameter without a default. -/
  | parameter {type : DataType} (ht : design.types.find? decl.effectiveType = some type) :
      Makes design decl name (.parameter none) design (.ofRole name type (.parameter none))
  /-- A parameter with a default. -/
  | default {type : DataType} {value : Constant} {id : NodeId} {next : Design}
      (ht : design.types.find? decl.effectiveType = some type)
      (hs : design.Supplies value id next) :
      Makes design decl name (.parameter (some value)) next
        (.ofRole name type (.parameter (some id)))
  | expression {op : Operator} {lhs rhs : Operand} {left right : NodeId} {mid next : Design}
      {leftNode rightNode : Node} (hl : design.Resolves lhs left mid)
      (hr : mid.Resolves rhs right next) (hleft : next.node? left = some leftNode)
      (hright : next.node? right = some rightNode) :
      Makes design decl name (.expression op lhs rhs) next
        (.ofRole name leftNode.type (.expression op left right))

/-- A node is declared, under a name that is new. -/
inductive DeclaresNode (design : Design) (decl : NodeDecl) : Design → Prop
  | mk {name : String} {mid : Design} {node : Node} (hname : decl.effectiveName = .ok name)
      (hnew : design.declared.find? name = none)
      (hmakes : design.Makes decl name decl.form mid node) :
      DeclaresNode design decl (mid.insert .declared node)

/-- A connection gives a declared node its driver. -/
inductive Connects (design : Design) (connection : Connection) : Design → Prop
  | mk {destination source : NodeId} {mid : Design} {driver driven : Node}
      (hd : design.declared.find? connection.destination = some destination)
      (hs : design.Resolves connection.source source mid)
      (hdriver : mid.node? source = some driver) (hdriven : mid.node? destination = some driven)
      (hl : driven.isLiteral = false)
      (hfree : mid.policy.replacement = .detach ∨ driven.input = none) :
      Connects design connection (mid.withDriver destination source driver driven)

/-! ### Names of nodes -/

/-- The node in the place has the name, and is no literal. -/
def Named (design : Design) (name : String) (id : NodeId) : Prop :=
  ∃ node, design.node? id = some node ∧ node.isLiteral = false ∧ node.name = name

/-- The chosen names lead to the nodes that are no literals, each to the one that has it. -/
def Catalogued (design : Design) : Prop :=
  ∀ name id, design.declared.find? name = some id ↔ design.Named name id

/-- A declared node keeps its name. -/
theorem Extends.named (h : design.Extends next) (hn : design.Named name id) :
    next.Named name id := by
  obtain ⟨node, hn, hl, rfl⟩ := hn
  obtain ⟨other, ho, hname, hl'⟩ := h.keep hn
  exact ⟨other, ho, hl'.trans hl, hname⟩

/-- No two nodes that are no literals have the same name. -/
theorem Catalogued.unique (hc : design.Catalogued) {other : NodeId} (h : design.Named name id)
    (h' : design.Named name other) : id = other :=
  Option.some.inj (((hc name id).mpr h).symm.trans ((hc name other).mpr h'))

/-- The chosen names lead to the right nodes as long as neither the names nor the nodes change. -/
theorem Catalogued.of_nodes_eq (hc : design.Catalogued) (hd : next.declared = design.declared)
    (hn : next.nodes = design.nodes) : next.Catalogued := by
  intro name id
  unfold Named node?
  rw [hd, hn]
  exact hc name id

/-- New literals have no chosen names, so that these lead to the right nodes still. -/
theorem Catalogued.addsLiterals (hc : design.Catalogued) (h : design.AddsLiterals next) :
    next.Catalogued := by
  intro name id
  rw [h.declared, hc name id]
  constructor
  · exact h.toExtends.named
  · rintro ⟨node, hn, hl, hname⟩
    exact ⟨node, h.fresh hn hl, hl, hname⟩

/-- A new node under a name that is new is what this name leads to. All other names lead where they
    did. -/
theorem Catalogued.insert (hc : design.Catalogued) (hl : node.isLiteral = false)
    (hnew : design.declared.find? node.name = none) :
    (design.insert .declared node).Catalogued := by
  intro name id
  have hfind : (design.insert .declared node).declared.find? name =
      (design.declared.find? name).or (if name = node.name then some design.nodeCount else none) :=
    Registry.find?_register ..
  have hfree : design.node? design.nodeCount = none := Array.getElem?_eq_none (Nat.le_refl _)
  -- The new node is the only one that is new under a name, since its place was empty.
  have hnamed : (design.insert .declared node).Named name id ↔
      (id = design.nodeCount ∧ node.name = name) ∨ design.Named name id := by
    unfold Named
    rw [node?_insert]
    by_cases hid : id = design.nodeCount
    · simp [hid, hfree, hl]
    · simp [hid]
  rw [hfind, hnamed, ← hc name id]
  by_cases hname : name = node.name
  · subst hname
    simp [hnew, eq_comm]
  · simp [hname, Ne.symm hname]

/-- A new driver changes no names, and so each name is still registered for the same node, whatever
    happens to the edges of the node. -/
theorem Catalogued.withDriver {destination : NodeId} {driver driven : Node}
    (hc : design.Catalogued) :
    (design.withDriver destination source driver driven).Catalogued := by
  have hext := Extends.withDriver design destination source driver driven
  intro name id
  rw [(Rewires.withDriver ..).declared, hc name id]
  -- There are as many nodes as before, and each has kept its name and its kind.
  constructor
  · exact hext.named
  · rintro ⟨node, hn, hl, rfl⟩
    obtain ⟨old, ho, hname, hl'⟩ := hext.of_nodeCount_eq (nodeCount_withDriver ..) hn
    exact ⟨old, ho, hl'.symm.trans hl, hname.symm⟩

/-! ### What every step keeps up -/

/-- The wiring is right, and the literals noted for truth values and the chosen names lead to the
    right nodes. -/
structure Consistent (design : Design) : Prop where
  /-- The edge table and the pins of the nodes agree. -/
  wired : design.Wired
  /-- The literals that are noted for the truth values hold these. -/
  notes : design.NotesLiterals
  /-- The chosen names lead to the nodes that are no literals. -/
  catalogued : design.Catalogued

/-- A design without nodes is consistent. -/
theorem Consistent.start (name : String) (policy : Policy) :
    (Session.start name policy).design.Consistent where
  wired := Session.wired_start name policy
  notes := .start name policy
  catalogued name id := by simp [Named, node?, Session.start]

/-- New literals do no harm: they have no edges, no chosen names, and the noted ones are right. -/
theorem Consistent.addsLiterals (hc : design.Consistent) (h : design.AddsLiterals next) :
    next.Consistent :=
  ⟨h.reaches.wired hc.wired, h.reaches.notesLiterals hc.notes, hc.catalogued.addsLiterals h⟩

/-- A declared type does no harm, since neither edges nor names have to do with types. -/
theorem DefinesType.consistent {decl : TypeDecl} (h : design.DefinesType decl next)
    (hc : design.Consistent) : next.Consistent := by
  obtain ⟨hdef⟩ := h
  have hchange := Change.define decl.name decl.shape hdef
  exact ⟨hchange.wired hc.wired, hchange.notesLiterals hc.notes, hc.catalogued.of_nodes_eq rfl rfl⟩

/-- A new type has a new name, which neither a built-in type nor a declared one has had before. -/
theorem DefinesType.find?_eq_none {decl : TypeDecl} (h : design.DefinesType decl next) :
    (design.types.find? decl.name).isSome ≠ true := by
  obtain ⟨hdef⟩ := h
  rw [TypeTable.define_eq] at hdef
  split at hdef
  case isTrue => exact absurd hdef (by simp)
  case isFalse hnew => exact hnew

/-- An operand changes nothing, or it takes the literal of a constant. -/
theorem KeptByLiterals.resolves {p : Design → Prop} {operand : Operand} (hp : KeptByLiterals p)
    (h : design.Resolves operand id next) (hd : p design) : p next := by
  cases h with
  | node => exact hd
  | constant h => exact hp.supplies h hd

/-- To resolve an operand adds nothing but a literal. -/
theorem Resolves.addsLiterals {operand : Operand} (h : design.Resolves operand id next) :
    design.AddsLiterals next :=
  (AddsLiterals.keptByLiterals design).resolves h (.refl design)

/-- An operand that is a name is a chosen name. -/
theorem Resolves.find?_isSome (h : design.Resolves (.node name) id next) :
    (design.declared.find? name).isSome = true := by
  obtain ⟨hf⟩ := h
  rw [hf]
  rfl

/-- An operand is always a node of the design: the one of its name, or the literal that has been
    supplied for the constant. -/
theorem Resolves.exists_node {operand : Operand} (h : design.Resolves operand id next)
    (hc : design.Consistent) : ∃ node, next.node? id = some node := by
  cases h with
  | node h =>
    obtain ⟨node, hn, -⟩ := (hc.catalogued _ id).mp h
    exact ⟨node, hn⟩
  | constant h =>
    obtain ⟨node, hn, -⟩ := h.holds hc.notes
    exact ⟨node, hn⟩

/-- Up to its own node, a declaration takes nothing but the literals of its constants. -/
theorem KeptByLiterals.makes {p : Design → Prop} {decl : NodeDecl} {form : NodeForm}
    (hp : KeptByLiterals p) (h : design.Makes decl name form next node) (hd : p design) :
    p next := by
  cases h with
  | port | signal | parameter => exact hd
  | default _ hs => exact hp.supplies hs hd
  | expression hl hr => exact hp.resolves hr (hp.resolves hl hd)

namespace Makes

variable {decl : NodeDecl} {form : NodeForm}

/-- Up to its own node, a declaration adds nothing but literals. -/
theorem addsLiterals (h : design.Makes decl name form next node) : design.AddsLiterals next :=
  (AddsLiterals.keptByLiterals design).makes h (.refl design)

/-- The node of a declaration has the name that it is declared under. -/
theorem name_eq (h : design.Makes decl name form next node) : node.name = name := by
  cases h <;> rfl

/-- No declaration makes a literal. -/
theorem isLiteral_eq (h : design.Makes decl name form next node) : node.isLiteral = false := by
  cases h <;> rfl

/-- The type that a declaration refers to exists. -/
theorem find?_type (h : design.Makes decl name form next node) (ht : form.isTyped = true) :
    (design.types.find? decl.effectiveType).isSome = true := by
  cases h with
  | port h | signal h | parameter h | default h => rw [h]; rfl
  | expression => exact absurd ht (by simp [NodeForm.isTyped])

/-- The nodes that a declaration refers to exist. They are looked up in what stands above the
    declaration, so that it cannot refer to itself. -/
theorem find?_operand (h : design.Makes decl name form next node) {operand : String}
    (ho : .node operand ∈ form.operands) : (design.declared.find? operand).isSome = true := by
  cases h with
  | port | signal | parameter | default => exact absurd ho (by simp [NodeForm.operands])
  | @expression op lhs rhs left right mid next leftNode rightNode hl hr =>
    rw [NodeForm.operands, List.mem_cons, List.mem_singleton] at ho
    rcases ho with rfl | rfl
    · exact hl.find?_isSome
    · -- The literal of the left operand adds no chosen name.
      rw [← hl.addsLiterals.declared]
      exact hr.find?_isSome

/-- The new node refers to nodes that are there: a default is a literal, and operands have been
    looked up or made. -/
theorem admits (h : design.Makes decl name form next node) (hnotes : design.NotesLiterals) :
    next.Admits node := by
  cases h with
  | port | signal | parameter => exact ⟨rfl, trivial⟩
  | default _ hs =>
    obtain ⟨node, hn, hv⟩ := hs.holds hnotes
    refine admits_parameter.mpr ?_
    rintro _ ⟨⟩
    exact ⟨node, hn, by rw [Node.isLiteral_eq_value?, hv]; rfl⟩
  | expression _ _ hleft hright => exact admits_expression hleft hright rfl

end Makes

namespace DeclaresNode

variable {decl : NodeDecl}

/-- A declared node does no harm, since its name is new and it refers to nodes that are there. -/
theorem consistent (h : design.DeclaresNode decl next) (hc : design.Consistent) :
    next.Consistent := by
  obtain @⟨name, mid, node, hname, hnew, hmakes⟩ := h
  have hmid := hc.addsLiterals hmakes.addsLiterals
  have hchange := Change.insert .declared (hmakes.admits hc.notes)
  refine ⟨hchange.wired hmid.wired, hchange.notesLiterals hmid.notes, ?_⟩
  refine hmid.catalogued.insert hmakes.isLiteral_eq ?_
  rw [hmakes.name_eq, hmakes.addsLiterals.declared, hnew]

/-- A declaration does not change the policy. -/
theorem policy (h : design.DeclaresNode decl next) : next.policy = design.policy := by
  obtain ⟨-, -, hmakes⟩ := h
  exact hmakes.addsLiterals.policy

/-- A declaration of a node declares no type. -/
theorem types (h : design.DeclaresNode decl next) : next.types = design.types := by
  obtain ⟨-, -, hmakes⟩ := h
  exact hmakes.addsLiterals.types

/-- A declared node has no edges, and nor have the literals that it refers to. -/
theorem edgeTable (h : design.DeclaresNode decl next) : next.edgeTable = design.edgeTable := by
  obtain ⟨-, -, hmakes⟩ := h
  exact hmakes.addsLiterals.edgeTable

/-- A declaration leaves all nodes in their places. -/
theorem toExtends (h : design.DeclaresNode decl next) : design.Extends next := by
  obtain ⟨-, -, hmakes⟩ := h
  exact hmakes.addsLiterals.toExtends.trans (.insert _ _ _)

/-- The name of the declaration is new, and it is the only new one. -/
theorem find?_declared (h : design.DeclaresNode decl next) :
    ∃ id fresh, decl.effectiveName = .ok fresh ∧ design.declared.find? fresh = none ∧
      ∀ name, next.declared.find? name =
        (design.declared.find? name).or (if name = fresh then some id else none) := by
  obtain @⟨fresh, mid, node, hname, hnew, hmakes⟩ := h
  refine ⟨mid.nodeCount, fresh, hname, hnew, fun name => ?_⟩
  rw [← hmakes.addsLiterals.declared, ← hmakes.name_eq]
  exact Registry.find?_register ..

end DeclaresNode

/-- The chosen names are the names of the declarations. A port or a signal without a name of its own
    has the one that its type gives it. -/
theorem find?_declared_isSome {start : Design} {nodes : List NodeDecl}
    (h : Chain DeclaresNode start nodes next) (hstart : start.declared = {}) (name : String) :
    (next.declared.find? name).isSome = true ↔ name ∈ names nodes := by
  induction h with
  | nil => simp [hstart, names]
  | concat _ hx ih =>
    obtain ⟨id, fresh, hname, hnew, hfind⟩ := hx.find?_declared
    rw [hfind, names_concat _ hname, List.mem_append, List.mem_singleton, ← ih, Option.isSome_or,
      Bool.or_eq_true]
    by_cases heq : name = fresh <;> simp [heq]

/-- No two declarations that have passed have the same name, since the second one would have found
    its name taken. -/
theorem names_nodup {start : Design} {nodes : List NodeDecl}
    (h : Chain DeclaresNode start nodes next) (hstart : start.declared = {}) :
    (names nodes).Nodup := by
  apply h.nodup
  rintro earlier decl mid behind name hchain ⟨hname, hnew, -⟩ hkey hmem
  obtain rfl := Except.ok.inj (hname.symm.trans (NodeDecl.name?_eq_some.mp hkey))
  have htaken := (find?_declared_isSome hchain hstart _).mpr hmem
  rw [hnew] at htaken
  exact absurd htaken (by simp)

namespace Connects

variable {connection : Connection}

/-- A connection does no harm: the literal that it may take has no edges, and then one node gets a
    driver. -/
theorem consistent (h : design.Connects connection next) (hc : design.Consistent) :
    next.Consistent := by
  obtain ⟨-, hs, hdriver, hdriven, hl, -⟩ := h
  have hmid := hc.addsLiterals hs.addsLiterals
  have hreach := Reaches.withDriver hmid.wired hdriver hdriven hl
  exact ⟨hreach.wired hmid.wired, hreach.notesLiterals hmid.notes, hmid.catalogued.withDriver⟩

/-- The destination of a connection is a chosen name. -/
theorem find?_destination (h : design.Connects connection next) :
    (design.declared.find? connection.destination).isSome = true := by
  obtain ⟨hd⟩ := h
  rw [hd]
  rfl

/-- The source of a connection is a chosen name, unless it is a constant. -/
theorem find?_source (h : design.Connects connection next)
    (hs : connection.source = .node name) : (design.declared.find? name).isSome = true := by
  obtain ⟨-, hresolves⟩ := h
  rw [hs] at hresolves
  exact hresolves.find?_isSome

/-- Where drivers are not replaced, a connection finds its destination without one. -/
theorem input_eq_none (h : design.Connects connection next)
    (hp : design.policy.replacement = .reject) (hc : design.Consistent) :
    ∃ id node, design.Named connection.destination id ∧ design.node? id = some node ∧
      node.input = none := by
  obtain @⟨destination, source, mid, driver, driven, hd, hs, hdriver, hdriven, hl, hfree⟩ := h
  have hadds := hs.addsLiterals
  rcases hfree with hdetach | hi
  · rw [hadds.policy, hp] at hdetach
    exact absurd hdetach (by simp)
  · exact ⟨destination, driven, (hc.catalogued _ _).mp hd, hadds.fresh hdriven hl, hi⟩

/-- A connection does not change the policy. -/
theorem policy (h : design.Connects connection next) : next.policy = design.policy := by
  obtain ⟨-, hs⟩ := h
  rw [(Rewires.withDriver ..).policy, hs.addsLiterals.policy]

/-- A connection chooses no name. -/
theorem declared (h : design.Connects connection next) : next.declared = design.declared := by
  obtain ⟨-, hs⟩ := h
  rw [(Rewires.withDriver ..).declared, hs.addsLiterals.declared]

/-- A connection leaves all nodes in their places. -/
theorem toExtends (h : design.Connects connection next) : design.Extends next := by
  obtain ⟨-, hs⟩ := h
  exact hs.addsLiterals.toExtends.trans (.withDriver _ _ _ _ _)

end Connects

/-! ### Properties that building keeps up -/

/-- The property of designs survives the lines for nodes and for connections: the literals that they
    take, the nodes that are declared and the drivers that are given. What a declared node refers to
    is there before it. -/
structure KeptByBuilding (p : Design → Prop) : Prop extends KeptByLiterals p where
  declared : ∀ {design mid : Design} {decl : NodeDecl} {name : String} {form : NodeForm}
    {node : Node}, design.Makes decl name form mid node → p mid → p (mid.insert .declared node)
  driven : ∀ {design : Design} (destination source : NodeId) (driver driven : Node),
    p design → p (design.withDriver destination source driver driven)

namespace KeptByBuilding

variable {p : Design → Prop} (hp : KeptByBuilding p)

include hp

/-- The node comes last, behind the literals that it refers to. -/
theorem declaresNode {decl : NodeDecl} (h : design.DeclaresNode decl next) (hd : p design) :
    p next := by
  obtain ⟨-, -, hmakes⟩ := h
  exact hp.declared hmakes (hp.makes hmakes hd)

/-- The driver comes last, behind the literal that it may be. -/
theorem connects {connection : Connection} (h : design.Connects connection next) (hd : p design) :
    p next := by
  obtain ⟨-, hs⟩ := h
  exact hp.driven _ _ _ _ (hp.resolves hs hd)

end KeptByBuilding

end Design

end Schematic
