namespace Schematic

/-!
# Data types

The types of nodes.

* `Shape` — what a type's data looks like on wires;
* `DataType` — a shape under a name, with the four built-in types `bit`, `boolean`, `integer` and
  `string`;
* `DataType.width?` — the number of wires;
* `Builtin`, `Builtin.ofName?` — which of the built-in types, and by which name.
-/

/-- The shape of the data that a type carries. -/
inductive Shape where
  /-- A single wire. -/
  | bit
  /-- A truth value known when the design is built. -/
  | boolean
  /-- An integer known when the design is built. -/
  | integer
  /-- A text known when the design is built. -/
  | string
  /-- A bundle of wires. -/
  | vector (width : UInt32)
deriving DecidableEq, Repr

/-- Reads the keyword of a shape, in any mixture of upper and lower ASCII letters. A vector has no
    keyword here, since it needs a width too. -/
def Shape.ofKeyword? (text : String) : Option Shape :=
  match text.toLower with
  | "bit" => some .bit
  | "boolean" | "bool" => some .boolean
  | "integer" | "int" => some .integer
  | "string" | "str" => some .string
  | _ => none

/-- The number of wires that data of this shape takes, if it can be put on wires. -/
def Shape.width? : Shape → Option UInt32
  | .bit | .boolean => some 1
  | .vector width => some width
  | .integer | .string => none

/-- A named type. -/
structure DataType where
  /-- The name that declarations refer to. -/
  name : String
  /-- The shape of its data. -/
  shape : Shape
deriving DecidableEq, Repr

namespace DataType

/-- The built-in type of single wires. -/
def bit : DataType := ⟨"bit", .bit⟩

/-- The built-in type of truth values. -/
def boolean : DataType := ⟨"boolean", .boolean⟩

/-- The built-in type of integers. -/
def integer : DataType := ⟨"integer", .integer⟩

/-- The built-in type of texts. -/
def string : DataType := ⟨"string", .string⟩

/-- The types that every design has from the start. -/
def builtin : List DataType := [bit, boolean, integer, string]

/-- The number of wires that data of this type takes, if it can be put on wires. -/
def width? (type : DataType) : Option UInt32 := type.shape.width?

end DataType

/-- One of the built-in types. -/
inductive Builtin where
  | bit
  | boolean
  | integer
  | string
deriving DecidableEq, Repr

namespace Builtin

/-- The type itself. -/
def type : Builtin → DataType
  | .bit => .bit
  | .boolean => .boolean
  | .integer => .integer
  | .string => .string

/-- The built-in type of the given name. Upper and lower case are different here. -/
def ofName? (name : String) : Option Builtin :=
  match name with
  | "bit" => some .bit
  | "boolean" => some .boolean
  | "integer" => some .integer
  | "string" => some .string
  | _ => none

/-- A built-in type is found by its name. -/
@[simp] theorem ofName?_name (builtin : Builtin) : ofName? builtin.type.name = some builtin := by
  cases builtin <;> rfl

/-- A built-in type is found by no other name than its own, letter by letter and with its case. -/
theorem name_of_ofName? {name : String} {builtin : Builtin} (h : ofName? name = some builtin) :
    builtin.type.name = name := by
  unfold ofName? at h
  split at h
  case h_5 => exact absurd h (by simp)
  all_goals
    obtain rfl := Option.some.inj h
    rfl

/-- The list of the built-in types has the one of a name, if there is one. The table that is
    searched from the front and the look-up by cases are the same map. -/
theorem find?_builtin (name : String) :
    DataType.builtin.find? (·.name = name) = (ofName? name).map type := by
  cases h : ofName? name with
  | some builtin =>
    obtain rfl := name_of_ofName? h
    cases builtin <;> rfl
  | none =>
    rw [Option.map_none, List.find?_eq_none]
    -- Whatever stands in the list has its name.
    have hmem : ∀ type ∈ DataType.builtin, ∃ builtin : Builtin, type = builtin.type := by
      intro type hmem
      simp only [DataType.builtin, List.mem_cons, List.not_mem_nil, or_false] at hmem
      rcases hmem with rfl | rfl | rfl | rfl
      · exact ⟨bit, rfl⟩
      · exact ⟨boolean, rfl⟩
      · exact ⟨integer, rfl⟩
      · exact ⟨string, rfl⟩
    intro type htype hname
    obtain ⟨builtin, rfl⟩ := hmem type htype
    rw [decide_eq_true_eq] at hname
    rw [← hname, ofName?_name] at h
    exact absurd h (by simp)

end Builtin

end Schematic
