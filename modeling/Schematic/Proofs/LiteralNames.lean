import Mathlib.Data.String.Basic
import Mathlib.Order.Bounds.Defs
import Schematic.Proofs.Lookup
import Schematic.Proofs.Numerals
import Schematic.Proofs.Population

namespace Schematic

open Netlist

/-!
# Names of literals

A literal is named after its constant. Such a name can be one that is declared as well, and then it
leads to the declared node.

* `Constant.label`, `Constant.label_injective` — the names, which are different for different
  constants;
* `Design.Labelled` — the made-up names of a design lead to the first literals that have them. The
  building of a netlist keeps this up (`Labelled.keptByBuilding`);
* `Accounts.exists_holds_iff` — the constants that have literals are those that are used;
* `Netlist.lookup_of_toDesign` — what each name leads to in a built design.

Two facts are put together. The registry of made-up names is filled in step with the literals, so
that it knows the first literal of every name; and the label of a constant can be read back, so that
the literals of a name are the literals of one constant. The second fact needs that the three kinds
of label begin differently and that numerals of different integers differ. Which constants have
literals at all is known from the accounts of their uses.
-/

/-! ### Labels -/

namespace Constant

/-- The name of the literals of the constant. -/
def label : Constant → String
  | .bool value => if value then "bool_true" else "bool_false"
  | .int value => "int" ++ toString value.toInt
  | .string value => "str:" ++ value

/-- The literal of a constant has its label as its name. -/
@[simp] theorem name_literal (value : Constant) : value.literal.name = value.label := by
  cases value <;> rfl

/-- The first character of a label tells which kind of value the constant is. -/
theorem head?_label (value : Constant) :
    value.label.toList.head? = some (match value.storage with
      | .bool => 'b'
      | .int => 'i'
      | .string => 's') := by
  cases value with
  | bool value => cases value <;> rfl
  | int value => simp [label, storage]
  | string value => simp [label, storage]

/-- Different constants have different labels. -/
theorem label_injective : Function.Injective label := by
  intro value other h
  have hstorage : value.storage = other.storage := by
    have hhead := congrArg (·.toList.head?) h
    simp only [head?_label] at hhead
    revert hhead
    cases value.storage <;> cases other.storage <;> simp
  cases value <;> cases other <;> simp only [storage, reduceCtorEq] at hstorage
  case bool.bool value other =>
    cases value <;> cases other
    case false.false | true.true => rfl
    case false.true | true.false => exact absurd h (by decide)
  case int.int value other =>
    -- The decimal forms are read back.
    have hnumerals : toString value.toInt = toString other.toInt := by
      simpa [label, String.ext_iff] using h
    have hread := congrArg Text.readInt64? hnumerals
    rw [Text.readInt64?_toString, Text.readInt64?_toString] at hread
    rw [Option.some.inj hread]
  case string.string value other =>
    have htexts : value = other := by simpa [label, String.ext_iff] using h
    rw [htexts]

end Constant

/-- Whether the node is a literal of the name. -/
def Node.isLabelled (node : Node) (name : String) : Bool := node.value?.any (·.label = name)

namespace Design

variable {design next : Design} {id : NodeId} {node : Node} {value : Constant} {operand : Operand}
  {uses : List (Operand × NodeId)} {decl : NodeDecl}

/-! ### Made-up names -/

/-- A made-up name leads to the first literal that has it. -/
def Labelled (design : Design) : Prop :=
  ∀ name, design.derived.find? name = (design.idsWhere (·.isLabelled name)).head?

/-- The literal of a constant has one name, which is the label of the constant. -/
theorem isLabelled_literal (value : Constant) (name : String) :
    value.literal.isLabelled name = decide (value.label = name) := by
  rw [Node.isLabelled, Constant.value?_literal, Option.any_some]

/-- What is no literal does not count as labelled, whatever its name is. -/
theorem isLabelled_of_isLiteral (hl : node.isLiteral = false) (name : String) :
    node.isLabelled name = false := by
  rw [Node.isLabelled, value?_eq_none hl, Option.any_none]

/-- The literals of the label of a constant are those of the constant. -/
theorem isLabelled_label : node.isLabelled value.label = true ↔ node.value? = some value := by
  rw [Node.isLabelled, Option.any_eq_true]
  constructor
  · rintro ⟨other, hv, hlabel⟩
    rw [hv, Constant.label_injective (of_decide_eq_true hlabel)]
  · exact fun hv => ⟨value, hv, decide_eq_true rfl⟩

namespace Labelled

/-- Made-up names lead to the first literals as long as neither names nor nodes change. -/
theorem congr (h : design.Labelled) (hn : next.nodes = design.nodes)
    (hd : next.derived = design.derived) : next.Labelled := by
  intro name
  rw [hd, idsWhere_congr hn, h name]

/-- A new literal is found under its name unless there is an earlier one, in which case this one is
    still found. Either way it is the first literal of the name. -/
theorem insert_literal (h : design.Labelled) (value : Constant) :
    (design.insert .derived value.literal).Labelled := by
  intro name
  have hfind : (design.insert .derived value.literal).derived.find? name =
      (design.derived.find? name).or
        (if name = value.label then some design.nodeCount else none) := by
    rw [← Constant.name_literal]
    exact Registry.find?_register ..
  rw [hfind, idsWhere_push (nodes_insert ..), isLabelled_literal, List.head?_append, h name]
  by_cases hname : name = value.label
  · simp [hname]
  · simp [hname, Ne.symm hname]

/-- A node with a chosen name is no literal and gets no other name. -/
theorem insert_declared (h : design.Labelled) (hl : node.isLiteral = false) :
    (design.insert .declared node).Labelled := by
  intro name
  rw [idsWhere_push (nodes_insert ..), isLabelled_of_isLiteral hl, if_neg Bool.false_ne_true,
    List.append_nil, ← h name]
  rfl

/-- Literals are entered in the order in which they are made, and nothing else is entered among the
    made-up names. -/
theorem keptByBuilding : KeptByBuilding Labelled where
  literal value h := h.insert_literal value
  share _ _ h := h.congr (nodes_share ..) (congrFun (registry_share ..) .derived)
  declared hmakes h := h.insert_declared hmakes.isLiteral_eq
  driven {design} destination source driver driven h := by
    have hext := Extends.withDriver design destination source driver driven
    intro name
    have hselect (node : Node) : node.detached.isLabelled name = node.isLabelled name := by
      rw [Node.isLabelled, Node.value?_detached, Node.isLabelled]
    rw [hext.idsWhere_eq (nodeCount_withDriver ..) hselect, ← h name]
    exact congrArg (·.find? name) (congrFun (Rewires.withDriver ..).registry .derived)

end Labelled

/-! ### Used constants -/

/-- The constants that have literals are those that are used. No literal is made without a use, and
    every use of a constant leads to a literal of it. -/
theorem Accounts.exists_holds_iff (h : design.Accounts uses) :
    (∃ id, design.Holds value id) ↔ .constant value ∈ uses.map (·.1) := by
  rw [List.mem_map]
  constructor
  · rintro ⟨id, hv⟩
    by_cases hshared : value.isShared = true
    case pos =>
      cases value with
      | bool value => exact ⟨_, h.holds_bool_iff.mp hv, rfl⟩
      | int | string => exact absurd hshared (by simp [Constant.isShared, Constant.storage])
    case neg =>
      -- The literal is the one of a use, and no use has the literal of another constant.
      obtain ⟨node, hn, hvalue⟩ := hv
      have hown : id ∈ ownLiterals uses := by
        rw [h.own, mem_idsWhere]
        exact ⟨node, hn, by simp [Node.isFresh, hvalue, hshared]⟩
      obtain ⟨⟨operand, _⟩, hmem, rfl⟩ := List.mem_map.mp hown
      obtain ⟨huse, hfresh⟩ := List.mem_filter.mp hmem
      cases operand with
      | node => exact absurd hfresh (by simp [Operand.isFresh])
      | constant other =>
        obtain ⟨node', hn', hvalue'⟩ := h.stands _ huse
        obtain rfl := Option.some.inj (hn.symm.trans hn')
        obtain rfl := Option.some.inj (hvalue.symm.trans hvalue')
        exact ⟨_, huse, rfl⟩
  · rintro ⟨⟨_, id⟩, hmem, rfl⟩
    exact ⟨id, h.stands _ hmem⟩

end Design

/-! ### Built netlists -/

namespace Netlist

open Design

variable {netlist : Netlist} {policy : Policy} {design : Design} {name : String}

/-- The made-up names of a built design lead to the first literals that have them. -/
theorem Builds.labelled (h : netlist.Builds policy design) : design.Labelled :=
  h.keep Labelled.keptByBuilding fun _ name => Registry.find?_empty name

/-- A constant has a literal in a built design exactly if the netlist uses it. -/
theorem Builds.exists_holds_iff (h : netlist.Builds policy design) {value : Constant} :
    (∃ id, design.Holds value id) ↔ .constant value ∈ netlist.uses := by
  obtain ⟨early, late, haccounts, hforms, -, hsources, -⟩ := h.accounts
  rw [haccounts.exists_holds_iff, List.map_append, hforms, hsources, uses]

/-- The node in the place of a declaration is the one that is found under its name. -/
theorem Builds.find?_of_declared (h : netlist.Builds policy design) {k : Nat} {decl : NodeDecl}
    (hk : netlist.nodes[k]? = some decl) (hname : decl.effectiveName = .ok name) :
    ∃ id, design.find? name = some id ∧ design.members[k]? = some id ∧
      design.Embodies decl id := by
  obtain ⟨id, hid, hembodies⟩ := exists_getElem?_of_forall₂ h.members hk
  refine ⟨id, ?_, hid, hembodies⟩
  obtain ⟨node, role, hn, hname', hr, -⟩ := hembodies
  obtain rfl := Except.ok.inj (hname.symm.trans hname')
  have hnamed : design.Named node.name id := ⟨node, hn, Node.isLiteral_of_role? hr, rfl⟩
  rw [find?, (h.consistent.catalogued _ _).mpr hnamed, Option.some_or]

/-- A name that is not declared leads to a literal of the name. -/
theorem Builds.find?_of_not_declared (h : netlist.Builds policy design)
    (hname : name ∉ Netlist.names netlist.nodes) :
    design.find? name = (design.idsWhere (·.isLabelled name)).head? := by
  have hnone : design.declared.find? name = none :=
    Option.not_isSome_iff_eq_none.mp fun hsome => hname ((h.names name).mp hsome)
  rw [find?, hnone, Option.none_or, h.labelled]

/-- What a name leads to in the design of a netlist. -/
structure Finds (netlist : Netlist) (design : Design) (name : String) : Prop where
  /-- A name that is declared leads to the node of the declaration, which is no literal. -/
  declared : ∀ (k : Nat) (decl : NodeDecl),
    netlist.nodes[k]? = some decl → decl.effectiveName = .ok name →
    ∃ id, design.find? name = some id ∧ design.members[k]? = some id ∧ design.Embodies decl id
  /-- Any other name leads to the first literal of the constant that has this label, if the constant
      is used. -/
  literal : name ∉ names netlist.nodes →
    ∀ value, .constant value ∈ netlist.uses → value.label = name →
      ∃ id, design.find? name = some id ∧ IsLeast {id | design.Holds value id} id
  /-- No other name leads anywhere. -/
  nothing : name ∉ names netlist.nodes →
    (∀ value, .constant value ∈ netlist.uses → value.label ≠ name) → design.find? name = none

/-- In a built design, a declared name leads to its node, and the label of a used constant to the
    first literal of the constant, unless it is declared. No other name leads anywhere, and no two
    constants have the same label. -/
theorem lookup_of_toDesign (h : netlist.toDesign policy = .ok design) :
    Function.Injective Constant.label ∧ ∀ name, netlist.Finds design name := by
  have hb := builds_of_toDesign h
  refine ⟨Constant.label_injective, fun name => ⟨fun k decl => hb.find?_of_declared, ?_, ?_⟩⟩
  · rintro hname value huse rfl
    obtain ⟨id, hid⟩ := hb.exists_holds_iff.mpr huse
    -- Of this label there are the literals of this constant only.
    have hliterals : {id | ∃ node, design.node? id = some node ∧
        node.isLabelled value.label = true} = {id | design.Holds value id} := by
      simp only [isLabelled_label, Holds]
    rw [hb.find?_of_not_declared hname]
    cases hfirst : (design.idsWhere (·.isLabelled value.label)).head? with
    | some first => exact ⟨first, rfl, hliterals ▸ isLeast_of_head?_idsWhere hfirst⟩
    | none =>
      have hmem : id ∈ {id | design.Holds value id} := hid
      rw [← hliterals] at hmem
      rw [List.head?_eq_none_iff] at hfirst
      exact absurd (mem_idsWhere.mpr hmem) (by simp [hfirst])
  · intro hname hlabels
    rw [hb.find?_of_not_declared hname, List.head?_eq_none_iff, List.eq_nil_iff_forall_not_mem]
    intro id hmem
    obtain ⟨node, hn, hlabelled⟩ := mem_idsWhere.mp hmem
    obtain ⟨value, hv, hlabel⟩ := (Option.any_eq_true _ _).mp hlabelled
    exact hlabels value (hb.exists_holds_iff.mp ⟨id, node, hn, hv⟩) (of_decide_eq_true hlabel)

/-- The name `int3` is declared, and the label of the constant `3` as well. The constant `-4` is
    used twice, and its label leads to the first of its two literals. -/
theorem lookup_of_declared_label :
    let signal : NodeDecl := ⟨some "int3", .signal, some "integer", 2⟩
    let netlist : Netlist :=
      { nodes := [⟨some "W", .parameter (some (.int 3)), some "integer", 1⟩, signal],
        connections := [⟨"int3", .constant (.int (-4)), 3⟩, ⟨"W", .constant (.int (-4)), 4⟩] }
    ∃ design, netlist.toDesign .lenient = .ok design ∧ Constant.label (.int 3) = "int3" ∧
      design.find? "int3" = some 2 ∧ design.Embodies signal 2 ∧
      design.find? "int-4" = some 3 ∧ IsLeast {id | design.Holds (.int (-4)) id} 3 ∧
      design.find? "bool_true" = none := by
  intro signal netlist
  have hrun : (netlist.toDesign .lenient).toOption.map
      (fun design => (design.find? "int3", design.find? "int-4")) =
      some (some 2, some 3) := by decide +kernel
  cases h : netlist.toDesign .lenient with
  | error error =>
    rw [h] at hrun
    exact absurd hrun (by simp [Except.toOption])
  | ok design =>
    rw [h] at hrun
    obtain ⟨hsignal, hliteral⟩ := Prod.mk.inj (Option.some.inj hrun)
    obtain ⟨-, hfinds⟩ := lookup_of_toDesign h
    obtain ⟨id, hid, -, hembodies⟩ := (hfinds "int3").declared 1 signal rfl rfl
    obtain rfl := Option.some.inj (hid.symm.trans hsignal)
    obtain ⟨first, hfirst, hleast⟩ :=
      (hfinds "int-4").literal (by decide) (.int (-4)) (by decide) (by decide +kernel)
    obtain rfl := Option.some.inj (hfirst.symm.trans hliteral)
    refine ⟨design, rfl, by decide +kernel, hid, hembodies, hfirst, hleast, ?_⟩
    refine (hfinds "bool_true").nothing (by decide) fun value huse hlabel => ?_
    -- The name is a label, but of a constant without a use.
    obtain rfl : value = .bool true := Constant.label_injective hlabel
    exact absurd huse (by decide)

end Netlist

end Schematic
