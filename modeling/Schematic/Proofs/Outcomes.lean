import Schematic.Proofs.Construction

namespace Schematic

/-!
# Outcomes of edits

Rules for the two ways in which an edit can end, one for each way in which edits are put together.

* `Session.perform_bind_eq_ok` — when an edit made of others gives a value;
* `Session.Ends` — what holds if the edit gives a value, and what if it fails;
* `Ends.bind` — one edit after the other;
* `Ends.foldlM`, `Ends.forM` — a loop takes a step for every member of its list, or fails at one of
  them behind the steps of those before it.

An edit that is a sequence of others fails where one of them fails, and what it has changed by then
is not undone. To show that an edit does one of two things, it is followed through its parts with
`Ends`, a judgement with a condition for either outcome: the rule for sequences passes the condition
of the first part on as what the second one may assume. The rules for loops give a chain of steps or
a chain that breaks off, with an invariant that the steps may rely on.
-/

namespace Session

open Design

variable {α β : Type} {session : Session} {ok : α → Session → Prop} {fails : Error → Prop}

/-- An edit that succeeds has succeeded in both of its parts. -/
theorem perform_bind_eq_ok {last : Session} {first : Edit α} {next : α → Edit β} {result : β} :
    session.perform (first >>= next) = (.ok result, last) ↔
      ∃ value mid, session.perform first = (.ok value, mid) ∧
        mid.perform (next value) = (.ok result, last) := by
  rw [perform_bind]
  rcases session.perform first with ⟨error | value, mid⟩ <;> simp

/-- An edit whose value does not matter succeeds if the edit does. -/
theorem perform_discard_eq_ok {last : Session} {edit : Edit α} :
    session.perform (discard edit) = (.ok (), last) ↔
      ∃ value, session.perform edit = (.ok value, last) := by
  have hdiscard : discard edit = (fun _ => ()) <$> edit := rfl
  rw [hdiscard, perform_map]
  rcases session.perform edit with ⟨error | value, mid⟩ <;> simp [Except.map]

/-- The edit gives a value and a session of which `ok` holds, or it fails with an error of which
    `fails` holds. -/
def Ends (session : Session) (edit : Edit α) (ok : α → Session → Prop) (fails : Error → Prop) :
    Prop :=
  match session.perform edit with
  | (.ok value, next) => ok value next
  | (.error error, _) => fails error

namespace Ends

/-- An edit that gives a value ends as it should if value and session are right. -/
theorem of_ok {edit : Edit α} {value : α} {next : Session}
    (h : session.perform edit = (.ok value, next)) (hok : ok value next) :
    session.Ends edit ok fails := by
  rw [Ends, h]
  exact hok

/-- An edit that fails ends as it should if its error is right. -/
theorem of_error {edit : Edit α} {error : Error} {next : Session}
    (h : session.perform edit = (.error error, next)) (hfails : fails error) :
    session.Ends edit ok fails := by
  rw [Ends, h]
  exact hfails

/-- An edit that ends as it should and gives a value has given a right one. -/
theorem ok_of_perform {edit : Edit α} {value : α} {next : Session}
    (h : session.Ends edit ok fails) (hp : session.perform edit = (.ok value, next)) :
    ok value next := by
  rwa [Ends, hp] at h

/-- Both conditions may be weakened, each for its own outcome, so that an edit need not be run once
    more for a weaker result. -/
theorem imp {edit : Edit α} {ok' : α → Session → Prop} {fails' : Error → Prop}
    (h : session.Ends edit ok fails) (hok : ∀ value next, ok value next → ok' value next)
    (hfails : ∀ error, fails error → fails' error) : session.Ends edit ok' fails' := by
  unfold Ends at h ⊢
  split at h
  case h_1 value next hp => simpa only [hp] using hok value next h
  case h_2 error _ hp => simpa only [hp] using hfails error h

/-- The condition on values may be weakened alone. -/
theorem imp_ok {edit : Edit α} {ok' : α → Session → Prop} (h : session.Ends edit ok fails)
    (hok : ∀ value next, ok value next → ok' value next) : session.Ends edit ok' fails :=
  h.imp hok fun _ h => h

/-- The condition on errors may be weakened alone. -/
theorem imp_fails {edit : Edit α} {fails' : Error → Prop} (h : session.Ends edit ok fails)
    (hfails : ∀ error, fails error → fails' error) : session.Ends edit ok fails' :=
  h.imp (fun _ _ h => h) hfails

/-- The second edit starts where the first one ends, unless that fails. What is known of the first
    value and of the session is handed on to the second. -/
theorem bind {first : Edit α} {next : α → Edit β} {ok' : β → Session → Prop}
    (h : session.Ends first ok fails)
    (hnext : ∀ value mid, ok value mid → mid.Ends (next value) ok' fails) :
    session.Ends (first >>= next) ok' fails := by
  unfold Ends at h
  split at h
  case h_1 value mid hp =>
    have hrest : session.perform (first >>= next) = mid.perform (next value) := by
      rw [perform_bind, hp]
    rw [Ends, hrest]
    exact hnext value mid h
  case h_2 error mid hp => exact of_error (by rw [perform_bind, hp]) h

/-- A function of the value is right if the function of a right value is. -/
theorem map {edit : Edit α} {f : α → β} {ok' : β → Session → Prop}
    (h : session.Ends edit (fun value next => ok' (f value) next) fails) :
    session.Ends (f <$> edit) ok' fails := by
  rw [map_eq_pure_bind]
  exact h.bind fun value next hok => of_ok (perform_pure next (f value)) hok

/-- The value may be dropped, and the session is what counts. -/
theorem discard {edit : Edit α} {ok' : Unit → Session → Prop}
    (h : session.Ends edit (fun _ next => ok' () next) fails) :
    session.Ends (discard edit) ok' fails :=
  h.map

/-! ### Loops -/

variable {σ : Type} {step : Design → β → Design → Prop} {refuses : Design → β → Error → Prop}

/-- A loop takes its steps one after the other. If it fails, it does so at some member of the list,
    in the design that the members before it have left. The steps may rely on `inv` if they keep it
    up. -/
theorem foldlM (inv : σ → Design → Prop) {body : σ → β → Edit σ}
    (hbody : ∀ {session : Session} {acc : σ} (x : β), inv acc session.design →
      session.Ends (body acc x)
        (fun acc next => step session.design x next.design ∧ inv acc next.design)
        (refuses session.design x))
    (xs : List β) {acc : σ} (hstart : inv acc session.design) :
    session.Ends (xs.foldlM body acc)
      (fun acc next => Chain step session.design xs next.design ∧ inv acc next.design)
      (Breaks step refuses session.design xs) := by
  -- The induction is on what is left of the list, behind the part `passed` of it.
  have hloop : ∀ (left passed : List β) (current : Session) (acc : σ), xs = passed ++ left →
      Chain step session.design passed current.design → inv acc current.design →
      current.Ends (left.foldlM body acc)
        (fun acc next => Chain step session.design xs next.design ∧ inv acc next.design)
        (Breaks step refuses session.design xs) := by
    intro left
    induction left with
    | nil =>
      intro passed current acc hxs hchain hinv
      rw [List.append_nil] at hxs
      exact of_ok (perform_pure current acc) ⟨hxs ▸ hchain, hinv⟩
    | cons x left ih =>
      intro passed current acc hxs hchain hinv
      rw [List.foldlM_cons]
      refine ((hbody x hinv).imp_fails fun error h => ?_).bind fun acc next h => ?_
      · exact .mk hxs hchain h
      · exact ih (passed ++ [x]) next acc (by simpa using hxs) (hchain.concat h.1) h.2
  exact hloop xs [] session acc rfl .nil hstart

/-- A loop without a value of its own. It comes to a chain of its steps, or it breaks at one of them
    behind the chain of those before. -/
theorem forM (inv : Design → Prop) {body : β → Edit Unit}
    (hbody : ∀ {session : Session} (x : β), inv session.design →
      session.Ends (body x) (fun _ next => step session.design x next.design ∧ inv next.design)
        (refuses session.design x))
    (xs : List β) (hstart : inv session.design) :
    session.Ends (xs.forM body) (fun _ next => Chain step session.design xs next.design)
      (Breaks step refuses session.design xs) := by
  -- Such a loop is one that hands on nothing.
  have heq : xs.forM body = xs.foldlM (fun _ x => body x) () := by
    induction xs with
    | nil => rfl
    | cons x xs ih =>
      show (body x >>= fun _ => xs.forM body) = _
      rw [ih, List.foldlM_cons]
  rw [heq]
  refine (foldlM (fun _ : Unit => inv) ?_ xs hstart).imp_ok fun _ _ h => h.1
  exact fun x hinv => hbody x hinv

end Ends

end Session

end Schematic
