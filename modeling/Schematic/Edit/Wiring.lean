import Schematic.Edit.Basic

namespace Schematic.Edit

/-!
# Wiring nodes

* `connect`, `disconnect` — a whole edge;
* `release` — what becomes of the driver that a node has when it gets a new one;
* `attach`, `detach` — one side of an edge on one node, which no check foresees.
-/

/-- Removes an edge from the design and from the nodes that it joins. -/
def disconnect (id : EdgeId) : Edit Unit := do
  match (← design).edge? id with
  | none => throw (.edgeNotFound id)
  | some edge =>
    change (·.unlink id edge)
    note (.disconnected id edge.name)

/-- Makes room for a new driver of the node in place `id`. If it has a driver already, the policy
    says whether the old one or the new one has to yield. -/
def release (id : NodeId) (node : Node) : Edit Unit := do
  match node.input with
  | none => return ()
  | some stale =>
    match (← design).policy.replacement with
    | .reject => throw (.alreadyDriven node.name ((← design).edgeName stale))
    | .detach =>
      note (.replacing id stale)
      disconnect stale

/-- Makes `source` drive `destination`. A literal cannot be driven. -/
def connect (destination source : NodeId) : Edit EdgeId := do
  let driver ← node source
  let driven ← node destination
  if driven.isLiteral then throw (.cannotDriveLiteral driven.name)
  release destination driven
  let edge := (← design).nextEdge source destination driver.name driven.name
  change (·.link edge source destination)
  note (.connected edge.id source destination edge.name)
  return edge.id

/-- Enters one side of an edge on a node, and tells whether the node takes it. -/
def attach (id : NodeId) (edge : Edge) : Edit Bool := do
  let taken := ((← node id).attach? id edge).isSome
  change (·.attach edge id)
  return taken

/-- Removes one side of an edge from a node, and tells whether the node had it. -/
def detach (id : NodeId) (edge : Edge) : Edit Bool := do
  let had := ((← node id).detach? id edge).isSome
  change (·.detach edge id)
  return had

end Schematic.Edit
