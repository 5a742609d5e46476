namespace Schematic

/-!
# Policies

* `Replacement` — what becomes of a second driver;
* `Policy` — the choices that a design is built and checked under, `lenient` or `strict`.
-/

/-- What happens when a node that has a driver is connected again. -/
inductive Replacement where
  /-- The new driver takes the place of the old one. -/
  | detach
  /-- The new driver is refused. -/
  | reject
deriving DecidableEq, Repr

/-- The choices under which a design is built and checked. -/
structure Policy where
  /-- What happens to a second driver. -/
  replacement : Replacement
  /-- Whether a parameter may be without a driver and without a default. -/
  allowUnresolved : Bool
deriving DecidableEq, Repr

namespace Policy

/-- Second drivers replace first ones, and parameters may stay unresolved. -/
def lenient : Policy := ⟨.detach, true⟩

/-- Second drivers and unresolved parameters are refused. -/
def strict : Policy := ⟨.reject, false⟩

end Policy

end Schematic
