import Schematic.CommandLine
import Schematic.Proofs.Acceptance
import Schematic.Proofs.Lenience
import Schematic.Proofs.Resolution

namespace Schematic

open Netlist Design

/-!
# The strict policy

The strict policy accepts the netlists that say everything once and leave nothing open, and builds
of them what the lenient policy builds.

* `Netlist.toDesign_of_buildable` — a netlist that fulfils everything is built;
* `Netlist.Settled` — every parameter has a default or a connection to it;
* `Netlist.validate_toDesign` — when the design of a netlist passes its check;
* `Netlist.strict_iff_settled` — the strict policy, and the strict mode of the command, in terms of
  the lenient ones.

Two things set the strict policy apart: a second driver is refused, and an unresolved parameter
fails the check. Whether a netlist is built differs in the first only, by the conditions for being
built; that the two designs are the same is not read off these conditions but follows from the two
runs, which go side by side. Whether the check is passed differs in the second only, and in a built
design this can be seen from the netlist.
-/

namespace Netlist

variable {netlist : Netlist} {policy : Policy} {design : Design}

/-- Every parameter that is declared without a default is the destination of a connection. -/
def Settled (netlist : Netlist) : Prop :=
  ∀ decl ∈ netlist.nodes, decl.form = .parameter none →
    ∃ name, decl.name = some name ∧ name ∈ netlist.connections.map (·.destination)

/-! ### The designs of both policies -/

/-- A netlist that fulfils everything is built: a refusal would have a reason, and there is none. -/
theorem toDesign_of_buildable (h : netlist.Buildable policy) :
    ∃ design, netlist.toDesign policy = .ok design := by
  cases hd : netlist.toDesign policy with
  | ok design => exact ⟨design, rfl⟩
  | error error => exact absurd h (stops_of_toDesign hd).refusal.not_buildable

/-- A netlist is built under the strict policy if it is built under the lenient one and connects no
    node twice. -/
theorem toDesign_strict_iff (netlist : Netlist) :
    (∃ design, netlist.toDesign .strict = .ok design) ↔
      (∃ design, netlist.toDesign .lenient = .ok design) ∧
        (netlist.connections.map (·.destination)).Nodup := by
  constructor
  · rintro ⟨design, h⟩
    exact ⟨⟨_, toDesign_lenient h⟩, (builds_of_toDesign h).buildable.single rfl⟩
  · rintro ⟨⟨design, h⟩, hnodup⟩
    exact toDesign_of_buildable
      { (builds_of_toDesign h).buildable with single := fun _ => hnodup }

/-! ### Their checks -/

/-- A declared parameter has a name, and this is the one that it is known under. -/
theorem Builds.settled_iff (h : netlist.Builds policy design) :
    netlist.Settled ↔ design.unresolvedPlaces = [] := by
  rw [h.unresolvedPlaces_eq_nil]
  refine forall₂_congr fun decl hmem => forall_congr' fun hform => ?_
  have hnamed := h.buildable.named decl hmem (by rw [hform]; rfl)
  cases hname : decl.name with
  | none => exact absurd hname hnamed
  | some name => simp [NodeDecl.effectiveName, hname]

/-- A design passes its check if its policy does not mind unresolved parameters, or if there are
    none. -/
theorem validate_toDesign (h : netlist.toDesign policy = .ok design) :
    (∃ warnings, design.validate = .ok warnings) ↔
      policy.allowUnresolved = true ∨ netlist.Settled := by
  have hb := builds_of_toDesign h
  rw [hb.wired.validate_eq_ok, hb.policy_eq, hb.settled_iff]

end Netlist

/-! ### The command -/

namespace Options

variable {options : Options} {contents : Except FileFault ByteArray} {design : Design}

/-- The command succeeds exactly if it has a design to list. -/
theorem exitCode_execute :
    (options.execute contents).exitCode = 0 ↔ ∃ design, options.design contents = .ok design := by
  unfold execute
  cases options.design contents <;> simp

/-- What the strict mode accepts, the lenient mode accepts with the same design. -/
theorem design_of_strict (h : { options with strict := true }.design contents = .ok design) :
    { options with strict := false }.design contents = .ok design.relaxed := by
  obtain ⟨netlist, hnetlist, h⟩ := bind_eq_ok.mp h
  obtain ⟨built, hbuilt, h⟩ := bind_eq_ok.mp h
  obtain ⟨-, -, hresult⟩ := bind_eq_ok.mp h
  obtain rfl := Except.ok.inj hresult
  have hlenient := Netlist.toDesign_lenient hbuilt
  obtain ⟨warnings, hvalid⟩ := (Netlist.validate_toDesign hlenient).mpr (.inl rfl)
  exact bind_eq_ok.mpr ⟨netlist, hnetlist, bind_eq_ok.mpr ⟨_, hlenient,
    bind_eq_ok.mpr ⟨warnings, hvalid, rfl⟩⟩⟩

/-- No part of the listing depends on the policy. -/
theorem execute_of_strict (h : ({ options with strict := true }.execute contents).exitCode = 0) :
    { options with strict := false }.execute contents =
      { options with strict := true }.execute contents := by
  obtain ⟨design, hstrict⟩ := exitCode_execute.mp h
  simp only [execute, hstrict, design_of_strict hstrict]
  rfl

end Options

/-! ### Both policies -/

namespace Netlist

/-- The strict policy accepts a netlist exactly if the lenient one does, no node is connected twice
    and every parameter is settled. It builds the same design, with the same nodes, edges and names,
    under another policy, and the command lists the same. Whatever the lenient policy builds passes
    its check. -/
theorem strict_iff_settled :
    (∀ netlist : Netlist,
      ((∃ design warnings, netlist.toDesign .strict = .ok design ∧
          design.validate = .ok warnings) ↔
        (∃ design, netlist.toDesign .lenient = .ok design) ∧
          (netlist.connections.map (·.destination)).Nodup ∧ netlist.Settled) ∧
      (∀ design, netlist.toDesign .strict = .ok design →
        netlist.toDesign .lenient = .ok { design with policy := .lenient }) ∧
      ∀ design, netlist.toDesign .lenient = .ok design →
        ∃ warnings, design.validate = .ok warnings) ∧
    ∀ (options : Options) (contents : Except FileFault ByteArray),
      ({ options with strict := true }.execute contents).exitCode = 0 →
        { options with strict := false }.execute contents =
          { options with strict := true }.execute contents := by
  refine ⟨fun netlist => ⟨?_, fun design => toDesign_lenient, fun design h => ?_⟩,
    fun options contents => Options.execute_of_strict⟩
  · -- The first two conditions are those for being built under the strict policy, and the third one
    -- is that of its check.
    rw [← and_assoc, ← toDesign_strict_iff]
    constructor
    · rintro ⟨design, warnings, hstrict, hvalid⟩
      refine ⟨⟨design, hstrict⟩, ?_⟩
      exact ((validate_toDesign hstrict).mp ⟨warnings, hvalid⟩).resolve_left (by decide)
    · rintro ⟨⟨design, hstrict⟩, hsettled⟩
      obtain ⟨warnings, hvalid⟩ := (validate_toDesign hstrict).mpr (.inr hsettled)
      exact ⟨design, warnings, hstrict, hvalid⟩
  · exact (validate_toDesign h).mpr (.inl rfl)

/-- A parameter without a default, and a constant that drives it. -/
theorem strict_of_driven_parameter :
    let netlist : Netlist :=
      { nodes := [⟨some "w", .parameter none, some "integer", 1⟩],
        connections := [⟨"w", .constant (.int 8), 2⟩] }
    let contents : Except FileFault ByteArray := .ok "param w integer\nconnect w 8\n".toUTF8
    (∃ design warnings, netlist.toDesign .strict = .ok design ∧ design.validate = .ok warnings) ∧
    (∃ design warnings, netlist.toDesign .lenient = .ok design ∧ design.validate = .ok warnings) ∧
    (Options.execute ⟨"w.net", true, false⟩ contents).exitCode = 0 ∧
      Options.execute ⟨"w.net", false, false⟩ contents =
        Options.execute ⟨"w.net", true, false⟩ contents := by
  intro netlist contents
  obtain ⟨hnetlists, hcommand⟩ := strict_iff_settled
  obtain ⟨hiff, hsame, hcheck⟩ := hnetlists netlist
  have hlenient : ∃ design, netlist.toDesign .lenient = .ok design := ⟨_, rfl⟩
  have hsettled : netlist.Settled := by
    intro decl hmem _
    obtain rfl := List.mem_singleton.mp hmem
    exact ⟨"w", rfl, List.mem_cons_self⟩
  obtain ⟨design, warnings, hstrict, hvalid⟩ := hiff.mpr ⟨hlenient, by decide, hsettled⟩
  obtain ⟨warnings', hvalid'⟩ := hcheck _ (hsame design hstrict)
  have hexit : (Options.execute ⟨"w.net", true, false⟩ contents).exitCode = 0 := by decide +kernel
  exact ⟨⟨design, warnings, hstrict, hvalid⟩, ⟨_, warnings', hsame design hstrict, hvalid'⟩, hexit,
    hcommand ⟨"w.net", true, false⟩ contents hexit⟩

end Netlist

end Schematic
