import Calculator.Session.State

/-!
# `Proofs.Session.Run` — sessions after any number of actions

What a session has become is decided by its actions one after the other. The limit of its history and
what it plots over are set before the first action and stay; every other field is written by some of the
actions only. Evaluation and recall are the two actions with a choice in them; `Evaluation` and
`Selection` say everything that they can do.

## Contents

* `Session.starting`, `Session.run` — a session before its first action, and after a list of them
* `Session.editedMode_eq_idle_iff` — the mode after an edit
* `Session.Evaluation`, `Session.Selection` — the outcomes of evaluation and of recall
* `Session.run_settings` — what no action changes
-/

namespace Calculator.Session

/-- A session before its first action, with a limit to its history and a stretch to plot over. -/
def starting (limit : Nat) (domain : Interval) (steps : Nat) : Session :=
  (empty.withCapacity limit).plottingOver domain steps

/-- The session after some actions, the first one first. -/
def run (session : Session) (actions : List Action) : Session := actions.foldl perform session

/-- **The outcomes of an evaluation**: every case says what `evaluate` leaves and why. -/
inductive Evaluation (session : Session) (stamp : Stamp) (after : Session) : Prop where
  | nothing (blank : session.expression = "") (same : after = session)
  | graphed (typed : session.expression ≠ "") (mentions : mentionsVariable session.expression = true)
      (eq : after = session.evaluateGraph)
  | recorded (text : String) (typed : session.expression ≠ "")
      (scalar : mentionsVariable session.expression = false)
      (value : Calculator.evaluate session.expression = .number text)
      (eq : after = { session with
        result := text
        mode := .scalar
        history := session.record ⟨stamp.id, session.expression, text, stamp.timestamp⟩ })
  | failed (typed : session.expression ≠ "")
      (scalar : mentionsVariable session.expression = false)
      (value : Calculator.evaluate session.expression = .error)
      (eq : after = { session with result := errorWord, mode := .scalar })

/-- **The outcomes of a recall**: `select` leaves the session as it is, or does `restore` for an entry. -/
inductive Selection (session : Session) (id : String) (after : Session) : Prop where
  | nothing (same : after = session)
  | restored (entry : Calculation) (mem : entry ∈ session.history) (found : entry.id = id)
      (eq : after = session.restore entry)

section

variable {session : Session}

@[simp] theorem run_nil : session.run [] = session := rfl

@[simp] theorem run_cons (action : Action) (actions : List Action) :
    session.run (action :: actions) = (session.perform action).run actions := rfl

/-! ## Taking back a symbol

The fields are given one by one: to see that a session and the session without its last symbol have the
same history, nobody should have to look for the last symbol. -/

theorem eraseLast_mode (session : Session) :
    session.eraseLast.mode = editedMode session.eraseLast.expression := by
  simp only [eraseLast]

@[simp] theorem eraseLast_history (session : Session) :
    session.eraseLast.history = session.history := by
  simp only [eraseLast]

@[simp] theorem eraseLast_capacity (session : Session) :
    session.eraseLast.capacity = session.capacity := by
  simp only [eraseLast]

@[simp] theorem eraseLast_domain (session : Session) :
    session.eraseLast.domain = session.domain := by
  simp only [eraseLast]

@[simp] theorem eraseLast_steps (session : Session) : session.eraseLast.steps = session.steps := by
  simp only [eraseLast]

theorem editedMode_eq_idle_iff {expression : String} :
    editedMode expression = .idle ↔ expression = "" := by
  unfold editedMode
  by_cases hblank : expression = ""
  · simp [hblank]
  · rw [if_neg (fun h => hblank (String.isEmpty_iff.mp h))]
    simp [hblank]

theorem editedMode_ne_scalar (expression : String) : editedMode expression ≠ .scalar := by
  unfold editedMode
  split <;> decide

theorem editedMode_ne_graph (expression : String) : editedMode expression ≠ .graph := by
  unfold editedMode
  split <;> decide

/-! ## Outcomes -/

theorem evaluation (session : Session) (stamp : Stamp) :
    Evaluation session stamp (session.evaluate stamp) := by
  unfold evaluate
  by_cases hblank : session.expression.isEmpty = true
  · rw [if_pos hblank]
    exact .nothing (String.isEmpty_iff.mp hblank) rfl
  · have htyped : session.expression ≠ "" := fun h => hblank (String.isEmpty_iff.mpr h)
    rw [if_neg hblank]
    by_cases hmentions : mentionsVariable session.expression = true
    · rw [if_pos hmentions]
      exact .graphed htyped hmentions rfl
    · have hscalar : mentionsVariable session.expression = false := by simpa using hmentions
      rw [if_neg hmentions]
      unfold evaluateScalar
      cases hvalue : Calculator.evaluate session.expression with
      | number text => exact .recorded text htyped hscalar hvalue rfl
      | error => exact .failed htyped hscalar hvalue rfl

theorem selection (session : Session) (id : String) :
    Selection session id (session.select id) := by
  unfold select
  cases hentry : session.entry? id with
  | none => exact .nothing rfl
  | some entry =>
      have hid := List.find?_some hentry
      exact .restored entry (List.mem_of_find?_eq_some hentry) (beq_iff_eq.mp hid) rfl

/-! ## What no action changes -/

theorem evaluate_settings (session : Session) (stamp : Stamp) :
    (session.evaluate stamp).capacity = session.capacity ∧
      (session.evaluate stamp).domain = session.domain ∧
      (session.evaluate stamp).steps = session.steps := by
  cases session.evaluation stamp with
  | nothing _ same => rw [same]; exact ⟨rfl, rfl, rfl⟩
  | graphed _ _ eq => rw [eq]; exact ⟨rfl, rfl, rfl⟩
  | recorded _ _ _ _ eq => rw [eq]; exact ⟨rfl, rfl, rfl⟩
  | failed _ _ _ eq => rw [eq]; exact ⟨rfl, rfl, rfl⟩

theorem select_settings (session : Session) (id : String) :
    (session.select id).capacity = session.capacity ∧
      (session.select id).domain = session.domain ∧
      (session.select id).steps = session.steps := by
  cases session.selection id with
  | nothing same => rw [same]; exact ⟨rfl, rfl, rfl⟩
  | restored _ _ _ eq => rw [eq]; exact ⟨rfl, rfl, rfl⟩

theorem perform_settings (session : Session) (action : Action) :
    (session.perform action).capacity = session.capacity ∧
      (session.perform action).domain = session.domain ∧
      (session.perform action).steps = session.steps := by
  cases action with
  | append text => exact ⟨rfl, rfl, rfl⟩
  | eraseLast => simp [perform]
  | clear => exact ⟨rfl, rfl, rfl⟩
  | evaluate stamp => exact session.evaluate_settings stamp
  | select id => exact session.select_settings id

/-- The limit of the history and what is plotted over stay as they were at the start. -/
theorem run_settings (session : Session) (actions : List Action) :
    (session.run actions).capacity = session.capacity ∧
      (session.run actions).domain = session.domain ∧
      (session.run actions).steps = session.steps := by
  induction actions generalizing session with
  | nil => exact ⟨rfl, rfl, rfl⟩
  | cons action actions ih =>
      obtain ⟨hc, hd, hs⟩ := session.perform_settings action
      obtain ⟨hc', hd', hs'⟩ := ih (session.perform action)
      exact ⟨hc'.trans hc, hd'.trans hd, hs'.trans hs⟩

end

end Calculator.Session
