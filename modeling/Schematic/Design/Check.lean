import Schematic.Design.Basic

namespace Schematic

/-!
# Checking designs

* `Design.unresolved`, `Design.undriven` — nodes that nothing gives a value to;
* `Design.checkEdge`, `Design.checkNode` — the edge table and the pins of the nodes agree;
* `Warning` — what is worth a word and no error;
* `Design.validate` — the whole check;
* `Design.inspect` — the same check, giving each warning at the moment when it comes up.
-/

/-- Something about a design that may be intended. -/
inductive Warning where
  /-- A parameter has no value. -/
  | unresolvedParameter (name : String)
  /-- A signal has no driver. -/
  | undrivenSignal (name : String)
deriving DecidableEq, Repr

/-- The wording of a warning. -/
def Warning.text : Warning → String
  | .unresolvedParameter name => s!"parameter '{name}' is unresolved"
  | .undrivenSignal name => s!"signal '{name}' has no driver"

namespace Design

/-- The parameters with neither a driver nor a default, with their places. -/
def unresolvedPlaces (design : Design) : List (NodeId × Node) :=
  design.placesWhere fun node => node.tag = .parameter ∧ design.resolve? node = none

/-- The signals without a driver, with their places. -/
def undrivenPlaces (design : Design) : List (NodeId × Node) :=
  design.placesWhere fun node => node.tag = .signal ∧ node.input = none

/-- The places of the parameters with neither a driver nor a default. -/
def unresolved (design : Design) : List NodeId := design.unresolvedPlaces.map (·.1)

/-- The places of the signals without a driver. -/
def undriven (design : Design) : List NodeId := design.undrivenPlaces.map (·.1)

/-- Refuses an edge that its source does not list among its outputs. -/
def checkSource (design : Design) (edge : Edge) : Except Error Unit :=
  match edge.source with
  | none => .ok ()
  | some id => do
    let node ← design.node id
    if edge.id ∈ node.outputs then .ok ()
    else .error (.asymmetricEdge edge.name (.missingOutput node.name))

/-- Refuses an edge that drives a literal, or that is not the input of its destination. -/
def checkDestination (design : Design) (edge : Edge) : Except Error Unit :=
  match edge.destination with
  | none => .ok ()
  | some id => do
    let node ← design.node id
    if node.isLiteral then .error (.cannotDriveLiteral node.name)
    else if node.input = some edge.id then .ok ()
    else .error (.asymmetricEdge edge.name (.missingInput node.name))

/-- Refuses an edge that its two ends do not both know. -/
def checkEdge (design : Design) (edge : Edge) : Except Error Unit := do
  design.checkSource edge
  design.checkDestination edge

/-- Refuses a node with an output that is no edge from this node. -/
def checkOutputs (design : Design) (id : NodeId) (node : Node) : Except Error Unit :=
  node.outputs.forM fun edge =>
    if design.source? edge = some id then .ok ()
    else .error (.asymmetricEdge edge.label (.staleOutput node.name))

/-- Refuses a node with an input that is no edge to this node. -/
def checkInput (design : Design) (id : NodeId) (node : Node) : Except Error Unit :=
  match node.input with
  | none => .ok ()
  | some edge =>
    if design.destination? edge = some id then .ok ()
    else .error (.asymmetricEdge edge.label (.staleInput node.name))

/-- Refuses a node that refers to an edge which does not refer to the node. -/
def checkNode (design : Design) (id : NodeId) (node : Node) : Except Error Unit := do
  design.checkOutputs id node
  design.checkInput id node

/-- Refuses a design whose edges and nodes disagree. -/
def checkWiring (design : Design) : Except Error Unit := do
  design.edges.forM design.checkEdge
  design.places.forM fun place => design.checkNode place.1 place.2

/-- Refuses an unresolved parameter, the first one, where the policy does not allow any. -/
def checkParameters (design : Design) : Except Error Unit :=
  match design.policy.allowUnresolved, design.unresolvedPlaces with
  | false, (_, node) :: _ => .error (.unresolvedParameter node.name)
  | _, _ => .ok ()

/-- What is worth a word: unresolved parameters first, then signals without a driver. -/
def warnings (design : Design) : List Warning :=
  design.unresolvedPlaces.map (fun place => .unresolvedParameter place.2.name) ++
    design.undrivenPlaces.map fun place => .undrivenSignal place.2.name

/-- Checks a design before it is used. -/
def validate (design : Design) : Except Error (List Warning) := do
  design.checkWiring
  design.checkParameters
  return design.warnings

/-! ### Warnings one by one -/

/-- A check in progress, with the warnings that it has given. They stay given if it fails. -/
abbrev Inspection := EStateM Error (List Warning)

/-- Gives a warning. -/
def warn (warning : Warning) : Inspection Unit := modify (· ++ [warning])

/-- Warns of an unresolved parameter, or refuses it where the policy does not allow any. -/
def inspectParameter (design : Design) (node : Node) : Inspection Unit := do
  if ¬ design.policy.allowUnresolved then throw (.unresolvedParameter node.name)
  warn (.unresolvedParameter node.name)

/-- Checks a design before it is used, and gives the warnings as they come up. -/
def inspect (design : Design) : Inspection Unit := do
  MonadExcept.ofExcept design.checkWiring
  design.unresolvedPlaces.forM fun place => design.inspectParameter place.2
  design.undrivenPlaces.forM fun place => warn (.undrivenSignal place.2.name)

end Design

end Schematic
