import Calculator.Proofs.Session.Run

/-!
# `Proofs.Session.Successes` — the history is the log of successes

An evaluation succeeds if there is an expression, without the free variable, and it has a value. The log
of a run has one entry for each success: the expression as it stood then, and its value as it is shown.
It is read off the actions alone and knows nothing of a history, of a limit, or of what was recalled.

The history adds at one end and cuts at the other, after every success anew. Cutting early loses nothing:
what is over the limit now is over it later too. So the history of a run is the log of the run, the newest
first, cut once.

## Contents

* `success?`, `successes` — what an action achieves, and the log of a run
* `perform_history_of_none`, `perform_history_of_some` — one action
* `run_history` — any number of actions
-/

namespace Calculator

/-- What an entry of the history shows. -/
def Calculation.shown (entry : Calculation) : String × String := (entry.expression, entry.result)

namespace Session

/-- What an action achieves: an expression and its value, if it evaluates one that has a value. -/
def success? (session : Session) : Action → Option (String × String)
  | .evaluate _ =>
    if session.expression = "" ∨ mentionsVariable session.expression = true then none
    else
      match valueOf session.expression with
      | .ok value => some (session.expression, String.ofList (resultNumeral value))
      | .error _ => none
  | _ => none

/-- The log of a run: what its actions achieve, the first one first. -/
def successes (session : Session) : List Action → List (String × String)
  | [] => []
  | action :: actions =>
    (session.success? action).toList ++ (session.perform action).successes actions

section

variable {session : Session} {action : Action} {success : String × String} {text : String}

theorem success?_of_blank (h : session.expression = "") (stamp : Stamp) :
    session.success? (.evaluate stamp) = none := if_pos (.inl h)

theorem success?_of_mentions (h : mentionsVariable session.expression = true) (stamp : Stamp) :
    session.success? (.evaluate stamp) = none := if_pos (.inr h)

theorem success?_of_number (htyped : session.expression ≠ "")
    (hscalar : mentionsVariable session.expression = false)
    (hvalue : Calculator.evaluate session.expression = .number text) (stamp : Stamp) :
    session.success? (.evaluate stamp) = some (session.expression, text) := by
  obtain ⟨value, hok, rfl⟩ := evaluate_eq_number_iff.mp hvalue
  unfold success?
  rw [if_neg (by simp [htyped, hscalar]), hok]

theorem success?_of_error (hvalue : Calculator.evaluate session.expression = .error)
    (stamp : Stamp) : session.success? (.evaluate stamp) = none := by
  unfold success?
  obtain ⟨e, herror⟩ := evaluate_eq_error_iff.mp hvalue
  rw [herror]
  exact ite_self none

/-! ## One action -/

/-- An action without success leaves the history as it is. -/
theorem perform_history_of_none (h : session.success? action = none) :
    (session.perform action).history = session.history := by
  cases action with
  | append text => rfl
  | eraseLast => exact session.eraseLast_history
  | clear => rfl
  | evaluate stamp =>
      show (session.evaluate stamp).history = session.history
      cases session.evaluation stamp with
      | nothing blank same => rw [same]
      | graphed typed mentions eq => rw [eq]; rfl
      | recorded text typed scalar value eq =>
          rw [success?_of_number typed scalar value] at h
          exact absurd h (by simp)
      | failed typed scalar value eq => rw [eq]
  | select id =>
      show (session.select id).history = session.history
      cases session.selection id with
      | nothing same => rw [same]
      | restored entry mem found eq => rw [eq]; rfl

/-- A success goes in front of the history, and the oldest entry goes if there are too many. -/
theorem perform_history_of_some (h : session.success? action = some success) :
    (session.perform action).history.map Calculation.shown =
      (success :: session.history.map Calculation.shown).take session.capacity := by
  cases action with
  | append text => exact absurd h (by simp [success?])
  | eraseLast => exact absurd h (by simp [success?])
  | clear => exact absurd h (by simp [success?])
  | select id => exact absurd h (by simp [success?])
  | evaluate stamp =>
      show (session.evaluate stamp).history.map Calculation.shown = _
      cases session.evaluation stamp with
      | nothing blank same =>
          rw [success?_of_blank blank] at h
          exact absurd h (by simp)
      | graphed typed mentions eq =>
          rw [success?_of_mentions mentions] at h
          exact absurd h (by simp)
      | recorded text typed scalar value eq =>
          rw [success?_of_number typed scalar value] at h
          obtain rfl := Option.some.inj h
          rw [eq]
          simp [record, Calculation.shown, List.map_take]
      | failed typed scalar value eq =>
          rw [success?_of_error value] at h
          exact absurd h (by simp)

/-- Both cases in one, for a history that keeps to its limit. -/
theorem perform_history (h : session.history.length ≤ session.capacity) (action : Action) :
    (session.perform action).history.map Calculation.shown =
      ((session.success? action).toList ++ session.history.map Calculation.shown).take
        session.capacity := by
  cases hsuccess : session.success? action with
  | none =>
      rw [perform_history_of_none hsuccess, Option.toList_none, List.nil_append,
        List.take_of_length_le (by simpa using h)]
  | some success => exact perform_history_of_some hsuccess

theorem perform_history_length_le (h : session.history.length ≤ session.capacity)
    (action : Action) :
    (session.perform action).history.length ≤ (session.perform action).capacity := by
  have hlength := congrArg List.length (perform_history h action)
  rw [List.length_map, List.length_take] at hlength
  rw [(session.perform_settings action).1]
  omega

/-! ## Any number of actions -/

/-- To cut the older part beforehand changes nothing. -/
theorem take_append_take {α : Type} (limit : Nat) (newer older : List α) :
    (newer ++ older.take limit).take limit = (newer ++ older).take limit := by
  rw [List.take_append, List.take_append, List.take_take, Nat.min_eq_left (Nat.sub_le _ _)]

theorem run_history (h : session.history.length ≤ session.capacity) (actions : List Action) :
    (session.run actions).history.map Calculation.shown =
      ((session.successes actions).reverse ++ session.history.map Calculation.shown).take
        session.capacity := by
  induction actions generalizing session with
  | nil =>
      rw [run_nil, successes, List.reverse_nil, List.nil_append,
        List.take_of_length_le (by simpa using h)]
  | cons action actions ih =>
      rw [run_cons, ih (perform_history_length_le h action), perform_history h action,
        (session.perform_settings action).1, take_append_take, successes, List.reverse_append,
        List.append_assoc]
      -- an action has one success at most, which is its own reverse
      cases session.success? action <;> rfl

/-- **The history is the log of successes.** Whatever the limit and the plotting range and whatever has been
done, the `history` shows the `successes` of the run from the newest one on, as far as the limit goes; and an
action without a `success?` leaves every entry as it is. -/
theorem run_starting_history (limit : Nat) (domain : Interval) (steps : Nat)
    (actions : List Action) :
    let session := starting limit domain steps
    (session.run actions).history.map Calculation.shown =
        (session.successes actions).reverse.take limit ∧
      ∀ action, (session.run actions).success? action = none →
        ((session.run actions).perform action).history = (session.run actions).history := by
  intro session
  have hnew : session.history = [] := List.take_nil
  refine ⟨?_, fun action hnone => perform_history_of_none hnone⟩
  rw [run_history (by rw [hnew]; exact Nat.zero_le _), hnew, List.map_nil, List.append_nil]
  rfl

end

end Session

end Calculator
