import Schematic.Proofs.NodeLists
import Schematic.Proofs.Operands
import Schematic.Proofs.Undoing

namespace Schematic

/-!
# Values of parameters

A parameter reads its value off its own pins and the edge table, and its driver is looked up through
the node table. In a wired design both come to the same.

* `Wired.resolve?_eq` — the value of a parameter is what drives it, or else its default;
* `Wired.resolve?_eq_none` — it has no value for want of an edge to it and of a default;
* `Wired.node?_unlink_input` — without the edge to it, a node is what it was and has no driver;
* `Session.values_of_run` — all this behind any run of commands, with the list of the parameters
  that have no value.

The two ways to a value meet at the input of the parameter. If it has one, the edge is in the table
with a source, and this is both the value and the driver; if it has none, it has no driver and the
default is left. With this equation, what happens when the edge is removed is a fact about drivers,
and the list of parameters without a value is one about nodes with a property.
-/

/-- A node counts as a parameter exactly if it has the role of one, with a default or without. -/
theorem Node.tag_eq_parameter {node : Node} :
    node.tag = .parameter ↔ ∃ default, node.role? = some (.parameter default) := by
  constructor
  · intro h
    obtain ⟨role, hr, ht⟩ := exists_role? (by simp [h] : node.tag ≠ .literal)
    cases role with
    | parameter default => exact ⟨default, hr⟩
    | _ => exact absurd (ht.trans h) (by simp [Role.tag])
  · rintro ⟨default, hr⟩
    exact tag_of_role? hr

namespace Design

variable {design : Design} {id : NodeId} {node : Node} {default : Option NodeId} {place : EdgeId}
  {edge : Edge}

/-- The value of a parameter is what drives it, or else its default. The node looks at its input,
    which in a wired design tells whether something drives it. -/
theorem Wired.resolve?_eq (hw : design.Wired) (hn : design.node? id = some node)
    (hr : node.role? = some (.parameter default)) :
    design.resolve? node = (design.driver? id).or default := by
  have hdriver : design.driver? id = node.input.bind design.source? := by
    rw [driver?, hn, Option.bind_some]
  cases hi : node.input with
  | none =>
    rw [hdriver, hi, Option.bind_none, Option.none_or]
    simp only [resolve?, hr, hi]
  | some place =>
    -- An input comes from somewhere, so that the default does not matter.
    have hsome : design.driver? id ≠ none := by
      rw [ne_eq, ← hw.input_eq_none_iff_driver? hn, hi]
      simp
    obtain ⟨source, hsource⟩ := Option.ne_none_iff_exists'.mp hsome
    rw [hsource, Option.some_or, ← hsource, hdriver, hi, Option.bind_some]
    simp only [resolve?, hr, hi]

/-- Nothing drives a node exactly if no edge leads to it. -/
theorem Wired.driver?_eq_none_iff (hw : design.Wired) :
    design.driver? id = none ↔ ∀ edge ∈ design.edges, edge.destination ≠ some id := by
  refine ⟨fun h edge hmem hd => ?_, hw.driver?_eq_none⟩
  obtain ⟨_, _, hs, -⟩ := (hw.joins edge hmem).source
  rw [hw.driver?_of_mem_edges hmem hd, hs] at h
  exact absurd h (by simp)

/-- A parameter has no value for want of an edge to it and of a default. -/
theorem Wired.resolve?_eq_none (hw : design.Wired) (hn : design.node? id = some node)
    (hr : node.role? = some (.parameter default)) :
    design.resolve? node = none ↔
      (∀ edge ∈ design.edges, edge.destination ≠ some id) ∧ default = none := by
  rw [hw.resolve?_eq hn hr, Option.or_eq_none_iff, hw.driver?_eq_none_iff]

/-- The parameters without a value are listed, and no other node is. -/
theorem mem_unresolved :
    id ∈ design.unresolved ↔
      ∃ node default, design.node? id = some node ∧ node.role? = some (.parameter default) ∧
        design.resolve? node = none := by
  rw [show design.unresolved = design.idsWhere _ from rfl, mem_idsWhere]
  simp only [decide_eq_true_eq, Node.tag_eq_parameter]
  constructor
  · rintro ⟨node, hn, ⟨default, hr⟩, hnone⟩
    exact ⟨node, default, hn, hr, hnone⟩
  · rintro ⟨node, default, hn, hr, hnone⟩
    exact ⟨node, hn, ⟨default, hr⟩, hnone⟩

/-- Without the edge to it, a node is what it was and has no driver. -/
theorem Wired.node?_unlink_input (hw : design.Wired) (hn : design.node? id = some node)
    (hedge : design.edge? place = some edge) (hd : edge.destination = some id) :
    ∃ other, (design.unlink place edge).node? id = some other ∧ other.role? = node.role? ∧
      (design.unlink place edge).driver? id = none := by
  obtain ⟨other, ho, hdet⟩ := Extends.unlink design place edge id node hn
  refine ⟨other, ho, Node.congr_detached Node.role?_detached hdet, ?_⟩
  have hinput : other.input = none := by
    have hfreed := (hw.loses hedge).node id
    rw [ho, hn, Option.map_some, if_pos hd] at hfreed
    rw [Option.some.inj hfreed, Node.input_withEdges, ite_self]
  rw [driver?, ho, Option.bind_some, hinput, Option.bind_none]

end Design

namespace Session

open Design

/-- Behind any run of commands, a parameter has the value that its driver gives it, or else its
    default, which is a literal. It is listed as unresolved exactly if it has no value, which is for
    want of an edge to it and of a default. When the edge to it is removed, it has its default
    again. -/
theorem values_of_run (name : String) (policy : Policy) (commands : List Command) :
    let session := (start name policy).run commands
    let design := session.design
    (∀ id node default, design.node? id = some node → node.role? = some (.parameter default) →
      design.resolve? node = (design.driver? id).or default ∧
      (∀ value, default = some value →
        ∃ literal, design.node? value = some literal ∧ literal.isLiteral = true) ∧
      (design.resolve? node = none ↔
        (∀ edge ∈ design.edges, edge.destination ≠ some id) ∧ default = none) ∧
      ∀ place edge, design.edge? place = some edge → edge.destination = some id →
        let next := session.step (.disconnect place)
        (session.perform (Command.disconnect place).run).1 = .ok .done ∧
          ∃ other, next.design.node? id = some other ∧
            other.role? = some (.parameter default) ∧ next.design.resolve? other = default) ∧
    design.unresolved.Pairwise (· < ·) ∧
    ∀ id, id ∈ design.unresolved ↔
      ∃ node default, design.node? id = some node ∧ node.role? = some (.parameter default) ∧
        design.resolve? node = none := by
  intro session design
  have hw : design.Wired := wired_run name policy commands
  have hf : design.Founded := founded_run name policy commands
  refine ⟨fun id node default hn hr => ⟨hw.resolve?_eq hn hr, ?value, hw.resolve?_eq_none hn hr,
    fun place edge hedge hd => ?removed⟩, idsWhere_pairwise .., fun id => mem_unresolved⟩
  case value =>
    rintro value rfl
    exact (hf.default hn hr).2
  -- Without the edge the parameter has no driver, and so its default is the value again.
  case removed =>
    intro next
    obtain ⟨journal, hdone⟩ := run_disconnect session hedge
    have hnext : next.design = design.unlink place edge := congrArg (·.2.design) hdone
    refine ⟨by rw [hdone], ?_⟩
    rw [hnext]
    obtain ⟨other, ho, hrole, hdriver⟩ := hw.node?_unlink_input hn hedge hd
    refine ⟨other, ho, hrole.trans hr, ?_⟩
    rw [(hw.unlink hedge).resolve?_eq ho (hrole.trans hr), hdriver, Option.none_or]

/-- A parameter drives itself, which gives it no value but itself, until the edge is removed. Its
    copy has had the default all the time. -/
theorem values_of_loop :
    let commands : List Command :=
      [.intLiteral 3, .parameter "p" .integer (some 0), .connect 1 1, .copy 1,
        .parameter "q" .integer none]
    let session := (start "top" .lenient).run commands
    let next := session.step (.disconnect 0)
    ∃ looped copy, session.design.node? 1 = some looped ∧ session.design.node? 2 = some copy ∧
      looped.role? = some (.parameter (some 0)) ∧ copy.role? = some (.parameter (some 0)) ∧
      session.design.resolve? looped = some 1 ∧ session.design.resolve? copy = some 0 ∧
      session.design.unresolved = [3] ∧
      ∃ other, next.design.node? 1 = some other ∧ other.role? = some (.parameter (some 0)) ∧
        next.design.resolve? other = some 0 := by
  intro commands session next
  obtain ⟨hparameters, -, -⟩ := values_of_run "top" .lenient commands
  obtain ⟨hlooped, -, -, hremoved⟩ := hparameters 1 _ (some 0) rfl rfl
  obtain ⟨hcopy, -⟩ := hparameters 2 _ (some 0) rfl rfl
  exact ⟨_, _, rfl, rfl, rfl, rfl, hlooped, hcopy, rfl, (hremoved 0 _ rfl rfl).2⟩

end Session

end Schematic
