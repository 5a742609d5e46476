import Schematic.Error

namespace Schematic

/-!
# Sequences of checks

Checks that are made one after the other, where the first failure ends the sequence.

* `bind_eq_ok`, `andThen_eq_ok`, `forM_eq_ok` — a sequence succeeds if all of it does;
* `FailsWith` — what holds of every error that can come out, by rules for the parts of a sequence.

Readers and validations of a design are such sequences, nested a few levels deep. Success is taken
apart from the outside: one equivalence for each way of putting checks together turns a success of
the whole into facts about the parts, and back. Failure is put together from the inside: a property
of errors holds of a sequence if it holds of each check in it, with no need to say which check it is
that fails.
-/

/-! ### Success -/

/-- A calculation with a second step succeeds exactly if the first step has a value with which the
    second one succeeds. -/
theorem bind_eq_ok {ε α β : Type} {first : Except ε α} {next : α → Except ε β} {result : β} :
    first >>= next = .ok result ↔ ∃ value, first = .ok value ∧ next value = .ok result := by
  cases first <;> simp [bind, Except.bind]

/-- A function of the outcome is a success exactly if the outcome is one, and then its value is the
    function of the value. -/
theorem map_eq_ok {ε α β : Type} {f : α → β} {outcome : Except ε α} {result : β} :
    outcome.map f = .ok result ↔ ∃ value, outcome = .ok value ∧ f value = result := by
  cases outcome <;> simp [Except.map]

/-- Two checks in a row pass exactly if each of them passes. -/
theorem andThen_eq_ok {ε : Type} {first second : Except ε Unit} :
    (first >>= fun _ => second) = .ok () ↔ first = .ok () ∧ second = .ok () := by
  cases first <;> simp [bind, Except.bind]

/-- A check of every member of a list passes exactly if each member passes on its own, whatever the
    order. -/
theorem forM_eq_ok {α ε : Type} {check : α → Except ε Unit} {xs : List α} :
    xs.forM check = .ok () ↔ ∀ x ∈ xs, check x = .ok () := by
  induction xs with
  | nil => simp [pure, Except.pure]
  | cons x xs ih =>
    -- Unfolded by hand into the first check and the others, for the two to be told apart below.
    show (check x >>= fun _ => xs.forM check) = .ok () ↔ _
    rw [List.forall_mem_cons, ← ih, andThen_eq_ok]

/-! ### Failure -/

/-- Every error that can come out is one of which `p` holds. -/
def FailsWith {α : Type} (p : Error → Prop) (outcome : Except Error α) : Prop :=
  ∀ error, outcome = .error error → p error

namespace FailsWith

variable {α β : Type} {p : Error → Prop}

/-- A success has no error that could break the property. -/
theorem of_ok (value : α) : FailsWith p (.ok value) := by
  intro error h
  exact absurd h (by simp)

/-- A failure has the property if its one error has it. -/
theorem of_error {e : Error} (h : p e) : FailsWith p (.error e : Except Error α) := by
  rintro _ ⟨⟩
  exact h

/-- The errors of a sequence are those of the first step and, for every value that it may have,
    those of the second. -/
theorem bind {first : Except Error α} {next : α → Except Error β} (h : FailsWith p first)
    (hnext : ∀ value, FailsWith p (next value)) : FailsWith p (first >>= next) := by
  cases first with
  | error e => exact .of_error (h e rfl)
  | ok value => exact hnext value

/-- A function of the value touches no error. -/
theorem map {f : α → β} {outcome : Except Error α} (h : FailsWith p outcome) :
    FailsWith p (outcome.map f) := by
  cases outcome with
  | error e => exact .of_error (h e rfl)
  | ok value => exact .of_ok (f value)

/-- The errors of a loop of checks are the errors of its checks. By induction on the list, the first
    check in front. -/
theorem forM {check : α → Except Error Unit} (h : ∀ x, FailsWith p (check x)) (xs : List α) :
    FailsWith p (xs.forM check) := by
  induction xs with
  | nil => exact .of_ok ()
  | cons x xs ih =>
    -- The loop over a list is its first check and then the loop over the rest, which is by
    -- definition but not the way `simp` leaves it.
    show FailsWith p (check x >>= fun _ => xs.forM check)
    exact (h x).bind fun _ => ih

end FailsWith

end Schematic
