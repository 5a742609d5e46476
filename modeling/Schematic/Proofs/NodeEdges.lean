import Mathlib.Data.List.Basic
import Schematic.Node

namespace Schematic.Node

/-!
# A node and its edges

A node is what it is without its edges (`detached`), its outputs and its input.

* `withEdges` — the node with other edges and otherwise as it was;
* `attach?_of_source`, `attach?_of_destination`, `detach?_of_source`, `detach?_of_destination` —
  what the two sides of an edge do to a node, in these terms;
* `detached_attach`, `detached_detach` — an edge, whatever it is, changes nothing but edges.

A literal and a node of any other kind keep their edges in different places, and an edge that leaves
and enters the same node is put on and taken off twice, once for each side. Taken as the node
without its edges together with two lists, both kinds behave alike, and each side of an edge changes
one of the lists. All that is said about edges later on is said in these terms.
-/

variable {node other : Node} {owner : NodeId} {edge : Edge}

/-- The node with other edges. A literal has no place for an input. -/
def withEdges (outputs : List EdgeId) (input : Option EdgeId) (node : Node) : Node :=
  match node.body with
  | .literal value _ => { node with body := .literal value { outputs } }
  | .wired role _ => { node with body := .wired role { outputs, input } }

/-! ### Nodes without their edges -/

/-- A node keeps its name when it loses its edges. -/
@[simp] theorem name_detached (node : Node) : node.detached.name = node.name := by
  unfold detached; split <;> rfl

/-- A node keeps its type when it loses its edges. -/
@[simp] theorem type_detached (node : Node) : node.detached.type = node.type := by
  unfold detached; split <;> rfl

/-- A literal keeps its value, and what is no literal has none with or without edges. -/
@[simp] theorem value?_detached (node : Node) : node.detached.value? = node.value? := by
  obtain ⟨_, _, _ | _⟩ := node <;> rfl

/-- A node keeps its role when it loses its edges, and with it the operands of an expression, the
    default of a parameter and the direction of a port. -/
@[simp] theorem role?_detached (node : Node) : node.detached.role? = node.role? := by
  obtain ⟨_, _, _ | _⟩ := node <;> rfl

/-- A node keeps its kind when it loses its edges. -/
@[simp] theorem tag_detached (node : Node) : node.detached.tag = node.tag := by
  obtain ⟨_, _, _ | _⟩ := node <;> rfl

/-- A node that loses its edges stays a literal, or stays something else. -/
@[simp] theorem isLiteral_detached (node : Node) : node.detached.isLiteral = node.isLiteral := by
  simp only [isLiteral, tag_detached]

/-- Without its edges a node has no outputs. -/
@[simp] theorem outputs_detached (node : Node) : node.detached.outputs = [] := by
  obtain ⟨_, _, _ | _⟩ := node <;> rfl

/-- Without its edges a node has no input. -/
@[simp] theorem input_detached (node : Node) : node.detached.input = none := by
  obtain ⟨_, _, _ | _⟩ := node <;> rfl

/-- Edges can be lost only once: a node without its edges is the same when they are taken away
    again. -/
@[simp] theorem detached_detached (node : Node) : node.detached.detached = node.detached := by
  obtain ⟨_, _, _ | _⟩ := node <;> rfl

/-- What does not depend on the edges of a node can be read off the node without them. -/
theorem congr_detached {α : Type} {f : Node → α} (hf : ∀ node, f node.detached = f node)
    (h : other.detached = node.detached) : f other = f node := by
  rw [← hf other, h, hf]

/-- A node is a literal exactly if it has a value. -/
theorem isLiteral_eq_value? (node : Node) : node.isLiteral = node.value?.isSome := by
  obtain ⟨_, _, _ | ⟨role, _⟩⟩ := node
  · rfl
  · cases role <;> rfl

/-- A literal has no input. -/
theorem isLiteral_of_input {id : EdgeId} (h : node.input = some id) : node.isLiteral = false := by
  obtain ⟨_, _, _ | ⟨role, _⟩⟩ := node
  · exact absurd h (by simp [input])
  · cases role <;> rfl

/-- A node with a role is no literal. -/
theorem isLiteral_of_role? {role : Role} (h : node.role? = some role) : node.isLiteral = false := by
  obtain ⟨_, _, _ | ⟨role, _⟩⟩ := node
  · exact absurd h (by simp [role?])
  · cases role <;> rfl

/-! ### Other edges -/

/-- Other edges change nothing about a node but its edges. -/
@[simp] theorem detached_withEdges (outputs : List EdgeId) (input : Option EdgeId) (node : Node) :
    (node.withEdges outputs input).detached = node.detached := by
  obtain ⟨_, _, _ | _⟩ := node <;> rfl

/-- The outputs are the ones that have been given. -/
@[simp] theorem outputs_withEdges (outputs : List EdgeId) (input : Option EdgeId) (node : Node) :
    (node.withEdges outputs input).outputs = outputs := by
  obtain ⟨_, _, _ | _⟩ := node <;> rfl

/-- The input is the one that has been given, unless the node is a literal, which has no place for
    it. -/
theorem input_withEdges (outputs : List EdgeId) (input : Option EdgeId) (node : Node) :
    (node.withEdges outputs input).input = if node.isLiteral then none else input := by
  obtain ⟨_, _, _ | ⟨role, _⟩⟩ := node
  · rfl
  · cases role <;> rfl

/-- A node with the edges that it has anyway is the node itself. -/
@[simp] theorem withEdges_self (node : Node) : node.withEdges node.outputs node.input = node := by
  obtain ⟨_, _, _ | _⟩ := node <;> rfl

/-- A node is what it is without its edges, together with these. -/
theorem eq_of_detached (h : other.detached = node.detached) (ho : other.outputs = node.outputs)
    (hi : other.input = node.input) : other = node := by
  have hself (node : Node) : node = node.detached.withEdges node.outputs node.input := by
    obtain ⟨_, _, _ | _⟩ := node <;> rfl
  rw [hself other, h, ho, hi, ← hself]

/-- Of edges that are given twice, those given last count. -/
@[simp] theorem withEdges_withEdges (outputs outputs' : List EdgeId) (input input' : Option EdgeId)
    (node : Node) :
    (node.withEdges outputs input).withEdges outputs' input' = node.withEdges outputs' input' := by
  obtain ⟨_, _, _ | _⟩ := node <;> rfl

/-! ### One side of an edge -/

/-- An edge that the node does not have yet goes behind the outputs of its source. -/
theorem attach?_of_source (hs : edge.source = some owner) (hfresh : edge.id ∉ node.outputs) :
    node.attach? owner edge =
      some (node.withEdges (node.outputs ++ [edge.id]) node.input) := by
  obtain ⟨_, _, _ | _⟩ := node <;>
    simp_all [attach?, outputs, FanOut.attach?, Pins.attach?, withEdges, input]

/-- An edge that cannot stand among the outputs becomes the input of its destination. -/
theorem attach?_of_destination (hd : edge.destination = some owner) (hl : node.isLiteral = false)
    (hs : edge.source = some owner → edge.id ∈ node.outputs) :
    node.attach? owner edge = some (node.withEdges node.outputs (some edge.id)) := by
  obtain ⟨_, _, _ | ⟨_, pins⟩⟩ := node
  · exact absurd hl (by simp [isLiteral, tag])
  · -- The outputs are tried first, and they turn the edge down.
    have hno : pins.toFanOut.attach? owner edge = none := if_neg fun h => h.2 (hs h.1)
    simp only [attach?, Pins.attach?, hno, hd, if_true, Option.map_some, withEdges, outputs]

/-- An edge among the outputs of its source is taken from there. -/
theorem detach?_of_source (hs : edge.source = some owner) (hmem : edge.id ∈ node.outputs) :
    node.detach? owner edge =
      some (node.withEdges (node.outputs.erase edge.id) node.input) := by
  obtain ⟨_, _, _ | _⟩ := node <;>
    simp_all [detach?, outputs, FanOut.detach?, Pins.detach?, withEdges, input]

/-- An edge that is not among the outputs is taken from the input of its destination. -/
theorem detach?_of_destination (hd : edge.destination = some owner)
    (hi : node.input = some edge.id) (hs : edge.source = some owner → edge.id ∉ node.outputs) :
    node.detach? owner edge = some (node.withEdges node.outputs none) := by
  obtain ⟨_, _, _ | ⟨_, pins⟩⟩ := node
  · exact absurd hi (by simp [input])
  · -- The outputs are searched first, and the edge is not among them.
    have hno : pins.toFanOut.detach? owner edge = none := if_neg fun h => hs h.1 h.2
    have hin : pins.input = some edge.id := hi
    simp only [detach?, Pins.detach?, hno, hd, hin, and_self, if_true, Option.map_some, withEdges,
      outputs]

/-- A side of an edge that is put on changes nothing but the edges of the node. -/
theorem detached_of_attach? (h : node.attach? owner edge = some other) :
    other.detached = node.detached := by
  obtain ⟨_, _, _ | _⟩ := node <;>
    · simp only [attach?, Option.map_eq_some_iff] at h
      obtain ⟨_, -, rfl⟩ := h
      rfl

/-- A side of an edge that is taken off changes nothing but the edges of the node. -/
theorem detached_of_detach? (h : node.detach? owner edge = some other) :
    other.detached = node.detached := by
  obtain ⟨_, _, _ | _⟩ := node <;>
    · simp only [detach?, Option.map_eq_some_iff] at h
      obtain ⟨_, -, rfl⟩ := h
      rfl

/-- Whether the node takes the edge or not, it stays what it is. -/
@[simp] theorem detached_attach (owner : NodeId) (edge : Edge) (node : Node) :
    ((node.attach? owner edge).getD node).detached = node.detached := by
  cases h : node.attach? owner edge with
  | none => rfl
  | some other => exact detached_of_attach? h

/-- Whether the edge could be taken off the node or not, the node stays what it is. -/
@[simp] theorem detached_detach (owner : NodeId) (edge : Edge) (node : Node) :
    ((node.detach? owner edge).getD node).detached = node.detached := by
  cases h : node.detach? owner edge with
  | none => rfl
  | some other => exact detached_of_detach? h

end Schematic.Node
