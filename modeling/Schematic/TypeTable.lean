import Schematic.DataType
import Schematic.Error

namespace Schematic

/-!
# Type tables

The types that the nodes of a design can have: the built-in ones and those declared so far.

* `TypeTable.find?` — look-up by name, among the built-in types first;
* `TypeTable.define` — a new declaration, refused if its name is reserved or taken;
* `TypeTable.define_eq` — a declaration is refused exactly if there is a type of its name;
* `TypeTable.declared?_of_define` — what is declared behind a declaration.
-/

/-- The types of a design. -/
structure TypeTable where
  /-- The declared types, in the order of their declaration. -/
  declared : List DataType := []
deriving DecidableEq, Repr

namespace TypeTable

/-- The names that no declaration can have. -/
def reserved : List String := ["bit", "boolean", "integer", "string"]

/-- The declared type of the given name. -/
def declared? (table : TypeTable) (name : String) : Option DataType :=
  table.declared.find? (·.name = name)

/-- The type of the given name. -/
def find? (table : TypeTable) (name : String) : Option DataType :=
  match Builtin.ofName? name with
  | some builtin => some builtin.type
  | none => table.declared? name

/-- Adds a type. A reserved name or the name of an earlier declaration is refused. -/
def define (table : TypeTable) (name : String) (shape : Shape) :
    Except Error (DataType × TypeTable) :=
  if name ∈ reserved ∨ (table.declared? name).isSome then .error (.duplicateType name)
  else .ok (⟨name, shape⟩, { declared := table.declared ++ [⟨name, shape⟩] })

variable {table next : TypeTable} {name other : String} {shape : Shape} {type : DataType}

/-! ### Look-up -/

/-- The reserved names are those of the built-in types. -/
theorem mem_reserved : name ∈ reserved ↔ (Builtin.ofName? name).isSome = true := by
  constructor
  · intro h
    simp only [reserved, List.mem_cons, List.not_mem_nil, or_false] at h
    rcases h with rfl | rfl | rfl | rfl <;> rfl
  · intro h
    obtain ⟨builtin, hbuiltin⟩ := Option.isSome_iff_exists.mp h
    rw [← Builtin.name_of_ofName? hbuiltin]
    cases builtin <;> simp [reserved, Builtin.type, DataType.bit, DataType.boolean,
      DataType.integer, DataType.string]

/-- A built-in type is found before any declared type of its name. -/
theorem find?_eq (table : TypeTable) (name : String) :
    table.find? name =
      (DataType.builtin.find? (·.name = name)).or (table.declared? name) := by
  rw [Builtin.find?_builtin, find?]
  cases Builtin.ofName? name <;> rfl

/-- Each built-in type is found under its own name, whatever has been declared. -/
theorem find?_builtin (table : TypeTable) (builtin : Builtin) :
    table.find? builtin.type.name = some builtin.type := by
  rw [find?, Builtin.ofName?_name]

/-- There is a type of a name if the name is reserved or declared. -/
theorem find?_isSome :
    (table.find? name).isSome = true ↔ name ∈ reserved ∨ (table.declared? name).isSome = true := by
  rw [mem_reserved, find?]
  cases Builtin.ofName? name <;> simp

/-- A declared type is found under its own name. -/
theorem name_of_declared? (h : table.declared? name = some type) : type.name = name := by
  simpa using List.find?_some h

/-- A type is found under its own name, whether it is built in or declared. -/
theorem name_of_find? (h : table.find? name = some type) : type.name = name := by
  unfold find? at h
  split at h
  case h_1 builtin hbuiltin =>
    obtain rfl := Option.some.inj h
    exact Builtin.name_of_ofName? hbuiltin
  case h_2 => exact name_of_declared? h

/-! ### Declarations -/

/-- A declaration is refused exactly if there is a type of its name. -/
theorem define_eq (table : TypeTable) (name : String) (shape : Shape) :
    table.define name shape =
      if (table.find? name).isSome then .error (.duplicateType name)
      else .ok (⟨name, shape⟩, { declared := table.declared ++ [⟨name, shape⟩] }) := by
  rw [define]
  by_cases h : (table.find? name).isSome = true
  · rw [if_pos (find?_isSome.mp h), if_pos h]
  · rw [if_neg (mt find?_isSome.mpr h), if_neg h]

/-- A declaration adds its type for its name, and changes nothing for any other name. -/
theorem declared?_of_define (h : table.define name shape = .ok (type, next)) (other : String) :
    next.declared? other =
      (table.declared? other).or (if name = other then some ⟨name, shape⟩ else none) := by
  unfold define at h
  split at h
  case isTrue => exact absurd h (by simp)
  case isFalse =>
    obtain ⟨-, rfl⟩ := Prod.mk.inj (Except.ok.inj h)
    rw [declared?, List.find?_append, ← declared?, List.find?_singleton]
    simp

end TypeTable

end Schematic
