import Std.Data.TreeMap.Lemmas
import Schematic.Edge

namespace Schematic

/-!
# Registries of names

A dictionary from names to nodes in which the first node under a name keeps it.

* `Registry.find?` — look-up;
* `Registry.register` — a new entry, without effect if the name is taken;
* `Registry.find?_register` — an entry answers for its own name, unless an earlier one does.
-/

/-- Nodes by name. -/
structure Registry where
  /-- The node of each name. -/
  entries : Std.TreeMap String NodeId := {}

namespace Registry

/-- The node under the given name. -/
def find? (registry : Registry) (name : String) : Option NodeId :=
  registry.entries[name]?

/-- Enters a node under a name, unless the name is taken. -/
def register (registry : Registry) (name : String) (id : NodeId) : Registry where
  entries := registry.entries.insertIfNew name id

/-- A registry without entries knows no name. -/
@[simp] theorem find?_empty (name : String) : ({} : Registry).find? name = none := by
  simp [find?]

/-- An entry answers for its own name, unless an earlier one does: the first node under a name keeps
    it, and no other name is touched. -/
theorem find?_register (registry : Registry) (name other : String) (id : NodeId) :
    (registry.register name id).find? other =
      (registry.find? other).or (if other = name then some id else none) := by
  simp only [find?, register, Std.TreeMap.getElem?_insertIfNew,
    Std.LawfulEqCmp.compare_eq_iff_eq]
  by_cases same : other = name
  · subst same
    by_cases taken : other ∈ registry.entries <;> simp [taken]
  · simp [same, Ne.symm same]

end Registry

end Schematic
