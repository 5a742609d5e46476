import Mathlib.Data.List.Nodup
import Schematic.Pins

namespace Schematic

/-!
# Pins in step with a fan-out

A node that can be driven keeps its outputs as one does that cannot, with an input beside them.
Called with the same edges, whatever these are, the two stay in step.

* `PinCall` — an edge is to be entered or removed;
* `FanOut.afterCalls`, `Pins.afterCalls` — calls one after the other, of which some are refused;
* `Pins.call?_of_accepted`, `Pins.call?_of_refused` — one call on both;
* `Pins.InStep`, `Pins.inStep_afterCalls` — what holds of the two at every point of a run;
* `Pins.loop_detached` — an edge from a node to itself.

The outputs of pins are looked at first, and the input only if the outputs refuse the call. So one
call on pins is one call on their outputs, or a call that their outputs refuse and that is then
about the driver. `call?_of_accepted` and `call?_of_refused` say what becomes of both parts in the
two cases, and `toFanOut_afterCall` puts them together: the outputs among the pins behave like a
fan-out that knows nothing of the input. With this, a run on pins and the same run on a fan-out have
the same outputs at every point, by induction on the calls, and `InStep` compares the two there.

No design is needed for this and no graph that would have to be valid. The edges of the calls are
arbitrary, with ends that need not exist.
-/

/-- A call on the pins of a node. -/
inductive PinCall where
  /-- An edge is to be entered. -/
  | attach (edge : Edge)
  /-- An edge is to be removed. -/
  | detach (edge : Edge)
deriving DecidableEq, Repr

namespace PinCall

/-- The edge that a call is about. -/
def edge : PinCall → Edge
  | .attach edge | .detach edge => edge

/-- The call makes its edge the input, or finds it there and removes it. -/
def Turns (before after : Option EdgeId) : PinCall → Prop
  | .attach edge => after = some edge.id
  | .detach edge => before = some edge.id ∧ after = none

end PinCall

variable {owner : NodeId} {call : PinCall}

/-! ### Calls on a fan-out -/

namespace FanOut

variable {fanOut next : FanOut}

/-- What a call makes of the fan-out, unless it is refused. -/
def call? (owner : NodeId) (call : PinCall) (fanOut : FanOut) : Option FanOut :=
  match call with
  | .attach edge => fanOut.attach? owner edge
  | .detach edge => fanOut.detach? owner edge

/-- The fan-out when the call is over. -/
def afterCall (owner : NodeId) (fanOut : FanOut) (call : PinCall) : FanOut :=
  (fanOut.call? owner call).getD fanOut

/-- The fan-out when all the calls are over. -/
def afterCalls (owner : NodeId) (fanOut : FanOut) (calls : List PinCall) : FanOut :=
  calls.foldl (afterCall owner) fanOut

/-- An edge is entered once, and so a call leaves no edge twice. -/
theorem nodup_of_call? (h : fanOut.call? owner call = some next) (hn : fanOut.outputs.Nodup) :
    next.outputs.Nodup := by
  cases call with
  | attach edge =>
    obtain ⟨⟨-, hfresh⟩, hnext⟩ := Option.ite_none_right_eq_some.mp h
    obtain rfl := Option.some.inj hnext
    exact hn.append (List.nodup_singleton _) (List.disjoint_singleton.mpr hfresh)
  | detach edge =>
    obtain ⟨-, hnext⟩ := Option.ite_none_right_eq_some.mp h
    obtain rfl := Option.some.inj hnext
    exact hn.erase _

/-- A call leaves no edge twice among the outputs, whether it is refused or not. -/
theorem nodup_afterCall (hn : fanOut.outputs.Nodup) (call : PinCall) :
    (fanOut.afterCall owner call).outputs.Nodup := by
  unfold afterCall
  cases h : fanOut.call? owner call with
  | none => exact hn
  | some next => exact nodup_of_call? h hn

/-- However many calls there are, no edge is twice among the outputs behind them. -/
theorem nodup_afterCalls (hn : fanOut.outputs.Nodup) (calls : List PinCall) :
    (fanOut.afterCalls owner calls).outputs.Nodup := by
  induction calls generalizing fanOut with
  | nil => exact hn
  | cons call calls ih => exact ih (nodup_afterCall hn call)

end FanOut

/-! ### Calls on pins -/

namespace Pins

variable {pins next : Pins} {fanOut : FanOut}

/-- What a call makes of the pins, unless it is refused. -/
def call? (owner : NodeId) (call : PinCall) (pins : Pins) : Option Pins :=
  match call with
  | .attach edge => pins.attach? owner edge
  | .detach edge => pins.detach? owner edge

/-- The pins when the call is over. -/
def afterCall (owner : NodeId) (pins : Pins) (call : PinCall) : Pins :=
  (pins.call? owner call).getD pins

/-- The pins when all the calls are over. -/
def afterCalls (owner : NodeId) (pins : Pins) (calls : List PinCall) : Pins :=
  calls.foldl (afterCall owner) pins

/-- A call that the outputs take goes to them, and the input stays. -/
theorem call?_of_accepted (h : pins.toFanOut.call? owner call = some fanOut) :
    pins.call? owner call = some { pins with toFanOut := fanOut } := by
  cases call with
  | attach edge =>
    have h : pins.toFanOut.attach? owner edge = some fanOut := h
    simp only [call?, attach?, h]
  | detach edge =>
    have h : pins.toFanOut.detach? owner edge = some fanOut := h
    simp only [call?, detach?, h]

/-- A call that the outputs refuse can only be about the driver of the node. Then the outputs stay,
    and the input is what the call makes it. -/
theorem call?_of_refused (h : pins.toFanOut.call? owner call = none)
    (hc : pins.call? owner call = some next) :
    call.edge.destination = some owner ∧ next.toFanOut = pins.toFanOut ∧
      call.Turns pins.input next.input := by
  -- Both calls have the same guard behind the outputs, that the edge leads to the node. A removal
  -- also asks whether the edge is the driver.
  cases call with
  | attach edge =>
    have h : pins.toFanOut.attach? owner edge = none := h
    simp only [call?, attach?, h] at hc
    obtain ⟨hd, hnext⟩ := Option.ite_none_right_eq_some.mp hc
    obtain rfl := Option.some.inj hnext
    exact ⟨hd, rfl, rfl⟩
  | detach edge =>
    have h : pins.toFanOut.detach? owner edge = none := h
    simp only [call?, detach?, h] at hc
    obtain ⟨⟨hd, hi⟩, hnext⟩ := Option.ite_none_right_eq_some.mp hc
    obtain rfl := Option.some.inj hnext
    exact ⟨hd, rfl, hi, rfl⟩

/-- The outputs among the pins are a fan-out that gets the same call. -/
theorem toFanOut_afterCall (owner : NodeId) (pins : Pins) (call : PinCall) :
    (pins.afterCall owner call).toFanOut = pins.toFanOut.afterCall owner call := by
  unfold afterCall FanOut.afterCall
  cases h : pins.toFanOut.call? owner call with
  | some fanOut => rw [call?_of_accepted h]; rfl
  | none =>
    cases hc : pins.call? owner call with
    | none => rfl
    | some next => exact (call?_of_refused h hc).2.1

/-- A run on pins is, as far as the outputs go, a run on a fan-out. -/
theorem toFanOut_afterCalls (owner : NodeId) (pins : Pins) (calls : List PinCall) :
    (pins.afterCalls owner calls).toFanOut = pins.toFanOut.afterCalls owner calls := by
  induction calls generalizing pins with
  | nil => rfl
  | cons call calls ih =>
    show ((pins.afterCall owner call).afterCalls owner calls).toFanOut =
      (pins.toFanOut.afterCall owner call).afterCalls owner calls
    rw [ih, toFanOut_afterCall]

/-! ### The two in step -/

/-- The pins of a node and a fan-out hold the same outputs, and agree about a call up to the driver
    of the node, of which a fan-out knows nothing. -/
structure InStep (owner : NodeId) (pins : Pins) (fanOut : FanOut) (call : PinCall) : Prop where
  outputs_eq : pins.outputs = fanOut.outputs
  nodup : pins.outputs.Nodup
  /-- What the fan-out accepts, the pins accept, with the same outputs and an unchanged input. -/
  accepted : ∀ after : FanOut, fanOut.call? owner call = some after →
    ∃ next : Pins, pins.call? owner call = some next ∧ next.outputs = after.outputs ∧
      next.input = pins.input
  /-- What only the pins accept is a matter of the driver. -/
  alone : ∀ next : Pins, fanOut.call? owner call = none → pins.call? owner call = some next →
    call.edge.destination = some owner ∧ next.outputs = pins.outputs ∧
      call.Turns pins.input next.input
  /-- A refused call changes nothing. -/
  fanOut_refused : fanOut.call? owner call = none → fanOut.afterCall owner call = fanOut
  refused : pins.call? owner call = none → pins.afterCall owner call = pins

/-- Pins are in step with their own outputs, and these are what a run on a fan-out leaves as
    well. -/
theorem inStep_toFanOut (hn : pins.outputs.Nodup) (call : PinCall) :
    pins.InStep owner pins.toFanOut call where
  outputs_eq := rfl
  nodup := hn
  accepted after h := ⟨{ pins with toFanOut := after }, call?_of_accepted h, rfl, rfl⟩
  alone next h hc := by
    obtain ⟨hd, ho, hi⟩ := call?_of_refused h hc
    exact ⟨hd, congrArg FanOut.outputs ho, hi⟩
  fanOut_refused h := by rw [FanOut.afterCall, h]; rfl
  refused h := by rw [afterCall, h]; rfl

/-- Whatever has been called on fresh pins and on a fresh fan-out, the two are in step, at this call
    and at every one. -/
theorem inStep_afterCalls (owner : NodeId) (calls : List PinCall) (call : PinCall) :
    (afterCalls owner {} calls).InStep owner (FanOut.afterCalls owner {} calls) call := by
  have hsame : (afterCalls owner {} calls).toFanOut = FanOut.afterCalls owner {} calls :=
    toFanOut_afterCalls owner {} calls
  have hn : (FanOut.afterCalls owner {} calls).outputs.Nodup :=
    FanOut.nodup_afterCalls List.nodup_nil calls
  rw [← hsame] at hn ⊢
  exact inStep_toFanOut hn call

/-- An edge from a node to itself, which is an output already, can be entered once more on pins, and
    goes to the input there. -/
theorem inStep_of_entered_loop :
    let loop : Edge := ⟨4, "loop", some 1, some 1⟩
    let pins := afterCalls 1 {} [.attach loop]
    let fanOut := FanOut.afterCalls 1 {} [.attach loop]
    fanOut.call? 1 (.attach loop) = none ∧ ∃ next, pins.call? 1 (.attach loop) = some next ∧
      next.outputs = fanOut.outputs ∧ next.input = some 4 := by
  intro loop pins fanOut
  have h := inStep_afterCalls 1 [.attach loop] (.attach loop)
  obtain ⟨-, houtputs, hinput⟩ := h.alone _ rfl rfl
  exact ⟨rfl, _, rfl, houtputs.trans h.outputs_eq, hinput⟩

/-! ### Edges from a node to itself -/

/-- An edge from a node to itself is entered as an output first and then as the input, and removed
    in the same order. A third call of either kind is of no use: entering leaves the pins as they
    are, and removing is refused. -/
theorem loop_detached {edge : Edge} (hs : edge.source = some owner)
    (hd : edge.destination = some owner) (hfresh : edge.id ∉ pins.outputs) :
    let output : Pins := { pins with outputs := pins.outputs ++ [edge.id] }
    let both : Pins := { output with input := some edge.id }
    let input : Pins := { pins with input := some edge.id }
    let neither : Pins := { pins with input := none }
    pins.attach? owner edge = some output ∧ output.attach? owner edge = some both ∧
      both.attach? owner edge = some both ∧ both.detach? owner edge = some input ∧
      input.detach? owner edge = some neither ∧ neither.detach? owner edge = none := by
  have herase : (pins.outputs ++ [edge.id]).erase edge.id = pins.outputs := by
    rw [List.erase_append_right _ hfresh, List.erase_cons_head, List.append_nil]
  simp [attach?, detach?, FanOut.attach?, FanOut.detach?, hs, hd, hfresh, herase]

end Pins

end Schematic
