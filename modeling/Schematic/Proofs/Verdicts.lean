import Schematic.Proofs.Resolution

namespace Schematic

/-!
# Verdicts

What the check says of a design that has come about by commands. Its wiring is right, so that only
a parameter without a value can be refused.

* `Wired.unresolvedPlaces_eq`, `Wired.undrivenPlaces_eq` — what the check warns of, in terms of the
  edge table;
* `Design.run_inspect` — warnings given one by one add up to those of the whole check, and a check
  that fails gives none;
* `Session.verdict_of_run` — the same for every run from an empty design.

In a wired design the two passes over edges and nodes find nothing, and what is left depends on the
unresolved parameters and the undriven signals. Both are lists of nodes with a property, so that
their order and their members are known. The pass that warns one by one is a loop with a growing
list of warnings; it is shown to end with the list of the whole check behind the warnings that were
there, by induction on the nodes that it goes through.
-/

namespace Design

variable {design : Design} {id : NodeId} {node : Node}

/-! ### What the check warns of -/

/-- A node has no input exactly if no edge leads to it. -/
theorem Wired.input_eq_none (hw : design.Wired) (hn : design.node? id = some node) :
    node.input = none ↔ design.incoming id = [] := by
  rw [← hw.input_eq hn, Option.toList_eq_nil_iff]

/-- A parameter is unresolved if it has no default and no edge leads to it. -/
theorem Wired.unresolvedPlaces_eq (hw : design.Wired) :
    design.unresolvedPlaces = design.places.filter fun place =>
      place.2.role? = some (.parameter none) ∧ design.incoming place.1 = [] := by
  refine List.filter_congr fun place hmem => ?_
  have hn := mem_places.mp hmem
  have hiff := hw.unresolved_iff hn
  rw [hw.input_eq_none hn] at hiff
  simp only [hiff]

/-- A signal has no driver if no edge leads to it. -/
theorem Wired.undrivenPlaces_eq (hw : design.Wired) :
    design.undrivenPlaces = design.places.filter fun place =>
      place.2.tag = .signal ∧ design.incoming place.1 = [] := by
  refine List.filter_congr fun place hmem => ?_
  simp only [hw.input_eq_none (mem_places.mp hmem)]

/-! ### Warnings one by one -/

section Inspection

variable {α : Type}

/-- A warning is given behind those that have been given, and never fails. -/
@[simp] theorem run_warn (warning : Warning) (given : List Warning) :
    (warn warning).run given = .ok () (given ++ [warning]) := rfl

/-- A loop of checks ends where the first check ends with an error, and otherwise goes on with the
    warnings that there are by then. -/
theorem run_forM_cons (check : α → Inspection Unit) (x : α) (xs : List α) (given : List Warning) :
    ((x :: xs).forM check).run given =
      match (check x).run given with
      | .ok _ given => (xs.forM check).run given
      | .error error given => .error error given := by
  show (check x >>= fun _ => xs.forM check).run given = _
  rw [EStateM.run_bind]
  cases (check x).run given <;> rfl

/-- A loop that gives a warning for each member of a list gives them in the order of the list. By
    induction on the list. -/
theorem run_forM_warn (warning : α → Warning) (xs : List α) (given : List Warning) :
    (xs.forM fun x => warn (warning x)).run given = .ok () (given ++ xs.map warning) := by
  induction xs generalizing given with
  | nil => rw [List.map_nil, List.append_nil]; rfl
  | cons x xs ih =>
    rw [run_forM_cons, run_warn]
    show (xs.forM fun x => warn (warning x)).run (given ++ [warning x]) = _
    rw [ih, List.append_assoc, List.map_cons, List.singleton_append]

/-- The pass over the unresolved parameters ends at the first one, before any warning, or it gives
    a warning for each. -/
theorem run_inspectParameters (design : Design) (given : List Warning) :
    (design.unresolvedPlaces.forM fun place => design.inspectParameter place.2).run given =
      match design.checkParameters with
      | .ok _ => .ok () (given ++ design.unresolvedPlaces.map (.unresolvedParameter ·.2.name))
      | .error error => .error error given := by
  unfold checkParameters inspectParameter
  -- The policy is the same for all parameters, so that the first one decides.
  cases design.policy.allowUnresolved with
  | true =>
    exact run_forM_warn (fun place : NodeId × Node => .unresolvedParameter place.2.name) _ given
  | false =>
    cases design.unresolvedPlaces with
    | nil => rw [List.map_nil, List.append_nil]; rfl
    | cons place places => rw [run_forM_cons]; rfl

/-- The warnings that are given one by one add up to those of the whole check. A check that fails
    gives none. -/
theorem run_inspect (design : Design) (given : List Warning) :
    design.inspect.run given =
      match design.validate with
      | .ok warnings => .ok () (given ++ warnings)
      | .error error => .error error given := by
  -- Both checks go through the wiring, the parameters and the signals in this order, and are
  -- compared after each.
  unfold inspect validate
  rw [EStateM.run_bind]
  cases design.checkWiring with
  | error error => rfl
  | ok =>
    show ((design.unresolvedPlaces.forM fun place => design.inspectParameter place.2) >>= fun _ =>
      design.undrivenPlaces.forM fun place => warn (.undrivenSignal place.2.name)).run given = _
    rw [EStateM.run_bind, run_inspectParameters]
    cases design.checkParameters with
    | error error => rfl
    | ok =>
      show (design.undrivenPlaces.forM fun place => warn (.undrivenSignal place.2.name)).run _ = _
      rw [run_forM_warn, List.append_assoc]
      rfl

end Inspection

end Design

namespace Session

open Design

/-- Whatever commands a design has come about by, its check is passed unless the policy forbids
    unresolved parameters and there is one, with no default and no edge to it. Then the first one
    is refused, and no warning is given. Otherwise there is a warning for each such parameter and
    behind these one for each signal without an edge to it, both in the order of the nodes. -/
theorem verdict_of_run (name : String) (policy : Policy) (commands : List Command) :
    let design := ((start name policy).run commands).design
    let unresolved := design.places.filter fun place =>
      place.2.role? = some (.parameter none) ∧ design.incoming place.1 = []
    let undriven := design.places.filter fun place =>
      place.2.tag = .signal ∧ design.incoming place.1 = []
    let warnings := unresolved.map (fun place => Warning.unresolvedParameter place.2.name) ++
      undriven.map fun place => Warning.undrivenSignal place.2.name
    match policy.allowUnresolved, unresolved with
    | false, (_, node) :: _ =>
      design.validate = .error (.unresolvedParameter node.name) ∧
        design.inspect.run [] = .error (.unresolvedParameter node.name) []
    | _, _ => design.validate = .ok warnings ∧ design.inspect.run [] = .ok () warnings := by
  intro design unresolved undriven warnings
  have hw : design.Wired := wired_run name policy commands
  have hpolicy : design.policy = policy := policy_run name policy commands
  have hunresolved : design.unresolvedPlaces = unresolved := hw.unresolvedPlaces_eq
  have hundriven : design.undrivenPlaces = undriven := hw.undrivenPlaces_eq
  have hwarnings : design.warnings = warnings := by
    rw [Design.warnings, hunresolved, hundriven]
  -- The two forms of the check agree, and the first is known by its edges.
  have hvalidate := hw.validate_eq
  rw [hpolicy, hunresolved, hwarnings] at hvalidate
  have hinspect := run_inspect design []
  rw [hvalidate] at hinspect
  clear_value warnings unresolved
  generalize policy.allowUnresolved = allowed at hvalidate hinspect ⊢
  cases allowed with
  | true => exact ⟨hvalidate, hinspect⟩
  | false => cases unresolved <;> exact ⟨hvalidate, hinspect⟩

-- Parameters come before signals, wherever they stand.
example :
    let design := ((start "top" .lenient).run [.signal "a" .bit, .parameter "b" .bit none]).design
    design.inspect.run [] = .ok () [.unresolvedParameter "b", .undrivenSignal "a"] := by rfl

end Session

end Schematic
