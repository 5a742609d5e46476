import Mathlib.Data.List.Induction
import Mathlib.Logic.Function.Basic
import Schematic.TypeTable

namespace Schematic

/-!
# Calls of a type table

A type table may keep its built-in types in cells that are filled when a type is first asked for.
Which cells are full shows in no answer: every answer follows from the calls before, and agrees
with the look-up that knows the built-in types from the start.

* `LazyTable` — a type table with such cells, and `LazyTable.perform` — one call of it;
* `TypeCall.defined?`, `firstDefined?` — the type that the first definition of a name asks for;
* `LazyTable.Follows` — what the table behind some calls keeps, and `Follows.perform` — a further
  call keeps it;
* `LazyTable.defined_iff` — which names have been defined;
* `LazyTable.dictionary_of_calls` — every answer, from the calls before.

The cells only hide something that never changes: what is taken from a cell is the built-in type of
the cell, whether the cell was full or is filled now. `Follows` says this of the cells, and of the
declared types that each is what its name was first defined as. Every call keeps both
(`Follows.perform`), and so they hold behind any calls.

The answers follow without any look at the cells. What is left is about the calls alone: that a name
is defined if some call asks to define it and the name is not reserved, since the first such call
cannot be refused (`defined_iff`). The induction there takes off the last call: if the name is
defined by the others, then the last call is of no consequence, and otherwise it can be the first to
define the name.
-/

/-- A call of a type table. -/
inductive TypeCall where
  /-- Declares a type. -/
  | define (name : String) (shape : Shape)
  /-- Asks for the type of a name. -/
  | find (name : String)
  /-- Asks for a built-in type. -/
  | builtin (builtin : Builtin)
deriving DecidableEq, Repr

/-- The type of the given name that the call wants to declare. -/
def TypeCall.defined? (name : String) : TypeCall → Option DataType
  | define other shape => if other = name then some ⟨other, shape⟩ else none
  | find _ | builtin _ => none

/-- The type that the first definition of the given name asks for. -/
def firstDefined? (calls : List TypeCall) (name : String) : Option DataType :=
  calls.findSome? (TypeCall.defined? name)

/-- A type table with a cell for each built-in type. -/
structure LazyTable where
  /-- The contents of the cells. -/
  cells : Builtin → Option DataType := fun _ => none
  /-- The declared types. -/
  table : TypeTable := {}

namespace LazyTable

/-- The contents of a cell. An empty one is filled now. -/
def take (lazy : LazyTable) (builtin : Builtin) : DataType × LazyTable :=
  match lazy.cells builtin with
  | some type => (type, lazy)
  | none =>
    (builtin.type, { lazy with cells := Function.update lazy.cells builtin builtin.type })

/-- The answer to a call, and the table behind it. -/
def perform (lazy : LazyTable) : TypeCall → Except Error (Option DataType) × LazyTable
  | .define name shape =>
    match lazy.table.define name shape with
    | .ok (type, table) => (.ok type, { lazy with table })
    | .error error => (.error error, lazy)
  | .find name =>
    match Builtin.ofName? name with
    | some builtin => (.ok (lazy.take builtin).1, (lazy.take builtin).2)
    | none => (.ok (lazy.table.declared? name), lazy)
  | .builtin builtin => (.ok (lazy.take builtin).1, (lazy.take builtin).2)

/-- The table behind the calls. -/
def run (calls : List TypeCall) : LazyTable :=
  calls.foldl (fun lazy call => (lazy.perform call).2) {}

/-- The answer to a call that comes behind the others. -/
def answer (calls : List TypeCall) (call : TypeCall) : Except Error (Option DataType) :=
  ((run calls).perform call).1

/-- The name was declared by one of the calls, and this one was not refused. -/
def Defined (calls : List TypeCall) (name : String) : Prop :=
  ∃ earlier shape later type, calls = earlier ++ .define name shape :: later ∧
    answer earlier (.define name shape) = .ok type

/-- What every answer is. -/
structure Dictionary (calls : List TypeCall) : Prop where
  /-- A definition fails if the name is reserved or defined, and for no other reason. -/
  refused : ∀ name shape error, answer calls (.define name shape) = .error error ↔
    (name ∈ ["bit", "boolean", "integer", "string"] ∨ Defined calls name) ∧
      error = .duplicateType name
  /-- Any other definition gives the type asked for. -/
  accepted : ∀ name shape, name ∉ ["bit", "boolean", "integer", "string"] →
    ¬ Defined calls name → answer calls (.define name shape) = .ok (some ⟨name, shape⟩)
  /-- A look-up gives the built-in type of the name, or else what it was first defined as. -/
  found : ∀ name, answer calls (.find name) =
    .ok ((DataType.builtin.find? (·.name = name)).or (firstDefined? calls name))
  /-- A built-in type is the same however it is asked for. -/
  builtin : ∀ builtin, answer calls (.builtin builtin) = .ok (some builtin.type)
  /-- A type that was found is found behind any further calls. -/
  kept : ∀ name type more, answer calls (.find name) = .ok (some type) →
    answer (calls ++ more) (.find name) = .ok (some type)
  /-- The cells are of no consequence. -/
  plain : ∀ name, answer calls (.find name) = .ok ((run calls).table.find? name)

variable {calls : List TypeCall} {call : TypeCall} {lazy : LazyTable} {name : String}
  {builtin : Builtin} {type : DataType}

/-! ### First definitions -/

/-- Of two runs of calls, the second one defines what the first one leaves undefined. -/
theorem firstDefined?_append (calls more : List TypeCall) (name : String) :
    firstDefined? (calls ++ more) name =
      (firstDefined? calls name).or (firstDefined? more name) :=
  List.findSome?_append

/-- A single call defines what it asks for. -/
theorem firstDefined?_singleton (call : TypeCall) (name : String) :
    firstDefined? [call] name = call.defined? name := by
  rw [firstDefined?, List.findSome?_singleton]

/-! ### One call -/

/-- What the table behind some calls is like. -/
structure Follows (calls : List TypeCall) (lazy : LazyTable) : Prop where
  /-- No cell has the type of another one. -/
  cells : ∀ builtin type, lazy.cells builtin = some type → type = builtin.type
  /-- A name that is not reserved is declared as it was first defined. -/
  declared : ∀ name, name ∉ TypeTable.reserved →
    lazy.table.declared? name = firstDefined? calls name

/-- A full cell and an empty one give the same type. -/
theorem Follows.take_fst (h : Follows calls lazy) (builtin : Builtin) :
    (lazy.take builtin).1 = builtin.type := by
  unfold take
  split
  case h_1 type htype => exact h.cells builtin type htype
  case h_2 => rfl

/-- Filling a cell does not touch what is declared. -/
theorem table_take (lazy : LazyTable) (builtin : Builtin) :
    (lazy.take builtin).2.table = lazy.table := by
  unfold take
  split <;> rfl

/-- A cell only gets its own type, and the other cells are left as they are when one is filled. -/
theorem Follows.cells_take (h : Follows calls lazy) (builtin other : Builtin) (type : DataType)
    (htype : (lazy.take builtin).2.cells other = some type) : type = other.type := by
  unfold take at htype
  split at htype
  case h_1 => exact h.cells other type htype
  case h_2 =>
    replace htype : Function.update lazy.cells builtin builtin.type other = some type := htype
    by_cases hother : other = builtin
    · subst hother
      rw [Function.update_self] at htype
      exact (Option.some.inj htype).symm
    · rw [Function.update_of_ne hother] at htype
      exact h.cells other type htype

/-- A call that defines nothing leaves what is declared as it was. -/
theorem Follows.take (h : Follows calls lazy) (builtin : Builtin)
    (hcall : ∀ name, call.defined? name = none) :
    Follows (calls ++ [call]) (lazy.take builtin).2 where
  cells := h.cells_take builtin
  declared name hname := by
    rw [table_take, firstDefined?_append, firstDefined?_singleton, hcall, Option.or_none]
    exact h.declared name hname

/-- A further call keeps all this. A refused definition declares nothing, and asks for a name that
    has been defined before, so that it is not the first definition of it. -/
theorem Follows.perform (h : Follows calls lazy) (call : TypeCall) :
    Follows (calls ++ [call]) (lazy.perform call).2 := by
  cases call with
  | define name shape =>
    cases hdef : lazy.table.define name shape with
    | ok result =>
      obtain ⟨type, table⟩ := result
      simp only [LazyTable.perform, hdef]
      refine ⟨h.cells, fun other hother => ?_⟩
      show table.declared? other = _
      rw [TypeTable.declared?_of_define hdef, h.declared other hother, firstDefined?_append,
        firstDefined?_singleton, TypeCall.defined?]
    | error error =>
      simp only [LazyTable.perform, hdef]
      refine ⟨h.cells, fun other hother => ?_⟩
      rw [firstDefined?_append, firstDefined?_singleton, ← h.declared other hother]
      -- The refused name has a type unless it is reserved, so that it was not its first definition.
      by_cases hname : name = other
      · subst hname
        have htaken : (lazy.table.declared? name).isSome = true := by
          rw [TypeTable.define] at hdef
          by_contra hfree
          simp [hother, hfree] at hdef
        obtain ⟨type, htype⟩ := Option.isSome_iff_exists.mp htaken
        rw [htype, Option.some_or]
      · rw [TypeCall.defined?, if_neg hname, Option.or_none]
  | find name =>
    cases hname : Builtin.ofName? name with
    | some builtin =>
      simp only [LazyTable.perform, hname]
      exact h.take builtin fun _ => rfl
    | none =>
      simp only [LazyTable.perform, hname]
      refine ⟨h.cells, fun other hother => ?_⟩
      rw [firstDefined?_append, firstDefined?_singleton, TypeCall.defined?, Option.or_none]
      exact h.declared other hother
  | builtin builtin => exact h.take builtin fun _ => rfl

/-- The last call is performed on the table behind all others. -/
theorem run_append_singleton (calls : List TypeCall) (call : TypeCall) :
    run (calls ++ [call]) = ((run calls).perform call).2 := by
  simp [run]

/-! ### All calls -/

/-- The table behind any calls from the start. -/
theorem follows_run (calls : List TypeCall) : Follows calls (run calls) := by
  induction calls using List.reverseRecOn with
  | nil => exact ⟨fun _ _ h => absurd h (by simp [run]), fun _ _ => rfl⟩
  | append_singleton calls call ih =>
    rw [run_append_singleton]
    exact ih.perform call

/-- A definition is accepted if the name is not reserved and no call before defines it. Look-ups do
    not count against it, however many there have been. -/
theorem answer_define (calls : List TypeCall) (name : String) (shape : Shape) :
    answer calls (.define name shape) =
      if name ∈ TypeTable.reserved ∨ (firstDefined? calls name).isSome
      then .error (.duplicateType name) else .ok (some ⟨name, shape⟩) := by
  have hanswer : answer calls (.define name shape) =
      ((run calls).table.define name shape).map fun result => some result.1 := by
    simp only [answer, perform]
    cases (run calls).table.define name shape <;> rfl
  -- A reserved name is refused whether it is declared or not, and so its declaration need not be
  -- known.
  have htaken : (name ∈ TypeTable.reserved ∨ ((run calls).table.declared? name).isSome = true) ↔
      (name ∈ TypeTable.reserved ∨ (firstDefined? calls name).isSome = true) := by
    by_cases hname : name ∈ TypeTable.reserved
    · simp only [hname, true_or]
    · rw [(follows_run calls).declared name hname]
  rw [hanswer, TypeTable.define]
  simp only [htaken]
  split <;> rfl

/-- A look-up gives what the table without cells would give. -/
theorem answer_find (calls : List TypeCall) (name : String) :
    answer calls (.find name) = .ok ((run calls).table.find? name) := by
  cases hname : Builtin.ofName? name with
  | some builtin =>
    simp only [answer, perform, hname, (follows_run calls).take_fst, TypeTable.find?]
  | none => simp only [answer, perform, hname, TypeTable.find?]

/-- What is defined stays defined, since nothing is ever taken out of the table. -/
theorem defined_append {more : List TypeCall} (h : Defined calls name) :
    Defined (calls ++ more) name := by
  obtain ⟨earlier, shape, later, type, rfl, htype⟩ := h
  exact ⟨earlier, shape, later ++ more, type, by simp, htype⟩

/-- The names defined so far are those that some call wants to define, but for the reserved ones.
    The first call that wants to define such a name is never refused. -/
theorem defined_iff : Defined calls name ↔
    name ∉ TypeTable.reserved ∧ (firstDefined? calls name).isSome = true := by
  constructor
  · rintro ⟨earlier, shape, later, type, rfl, htype⟩
    rw [answer_define] at htype
    split at htype
    case isTrue => exact absurd htype (by simp)
    case isFalse hfree =>
      refine ⟨fun hname => hfree (.inl hname), ?_⟩
      rw [firstDefined?_append]
      simp [firstDefined?, TypeCall.defined?]
  · rintro ⟨hname, hfirst⟩
    induction calls using List.reverseRecOn with
    | nil => exact absurd hfirst (by simp [firstDefined?])
    | append_singleton calls call ih =>
      by_cases hearlier : (firstDefined? calls name).isSome = true
      · exact defined_append (ih hearlier)
      -- The last call is the first one to define the name.
      rw [Option.not_isSome_iff_eq_none] at hearlier
      rw [firstDefined?_append, firstDefined?_singleton, hearlier, Option.none_or] at hfirst
      cases call with
      | define other shape =>
        obtain rfl : other = name := by
          by_contra hother
          simp [TypeCall.defined?, hother] at hfirst
        refine ⟨calls, shape, [], some ⟨other, shape⟩, rfl, ?_⟩
        rw [answer_define, if_neg]
        simp [hname, hearlier]
      | find | builtin => exact absurd hfirst (by simp [TypeCall.defined?])

/-- The names that a definition cannot have. -/
theorem taken_iff : name ∈ TypeTable.reserved ∨ Defined calls name ↔
    name ∈ TypeTable.reserved ∨ (firstDefined? calls name).isSome = true := by
  rw [defined_iff]
  by_cases hname : name ∈ TypeTable.reserved <;> simp [hname]

/-- What is found under a name: the built-in type if there is one, or else the type that its first
    definition asks for. -/
theorem answer_find_eq (calls : List TypeCall) (name : String) :
    answer calls (.find name) =
      .ok ((DataType.builtin.find? (·.name = name)).or (firstDefined? calls name)) := by
  rw [answer_find, TypeTable.find?_eq]
  by_cases hname : name ∈ TypeTable.reserved
  · -- The built-in type hides whatever is declared.
    obtain ⟨builtin, hbuiltin⟩ :=
      Option.isSome_iff_exists.mp (TypeTable.mem_reserved.mp hname)
    rw [Builtin.find?_builtin, hbuiltin, Option.map_some, Option.some_or, Option.some_or]
  · rw [(follows_run calls).declared name hname]

/-- A type table is a dictionary in which the first definition of a name counts and the names of
    the built-in types are reserved. -/
theorem dictionary_of_calls (calls : List TypeCall) : Dictionary calls where
  refused name shape error := by
    show _ ↔ (name ∈ TypeTable.reserved ∨ Defined calls name) ∧ _
    rw [answer_define, taken_iff]
    split
    case isTrue htaken =>
      rw [Except.error.injEq, and_iff_right htaken]
      exact eq_comm
    case isFalse hfree => simp only [hfree, false_and, reduceCtorEq]
  accepted name shape hname hdefined := by
    rw [answer_define, if_neg]
    rw [← taken_iff]
    exact not_or.mpr ⟨hname, hdefined⟩
  found name := answer_find_eq calls name
  builtin builtin := by
    show Except.ok (some ((run calls).take builtin).1) = _
    rw [(follows_run calls).take_fst]
  kept name type more htype := by
    rw [answer_find_eq] at htype ⊢
    have hfound := Except.ok.inj htype
    rw [firstDefined?_append, ← Option.or_assoc, hfound, Option.some_or]
  plain name := answer_find calls name

/-- Names that differ from a reserved one in upper and lower case are ordinary names, and a second
    definition changes nothing. -/
theorem dictionary_of_upper_case :
    answer [.define "BIT" .integer] (.define "BIT" (.vector 8)) = .error (.duplicateType "BIT") ∧
      answer [.define "BIT" .integer, .define "BIT" (.vector 8), .find "bit"] (.find "BIT") =
        .ok (some ⟨"BIT", .integer⟩) := by
  have h := dictionary_of_calls [.define "BIT" .integer]
  refine ⟨(h.refused "BIT" _ _).mpr ⟨.inr ?_, rfl⟩, ?_⟩
  · exact ⟨[], .integer, [], some ⟨"BIT", .integer⟩, rfl, rfl⟩
  · exact h.kept "BIT" ⟨"BIT", .integer⟩ [.define "BIT" (.vector 8), .find "bit"] rfl

end LazyTable

end Schematic
