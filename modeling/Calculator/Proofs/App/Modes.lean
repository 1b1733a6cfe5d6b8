import Calculator.Proofs.App.Desk

/-!
# `Proofs.App.Modes` — which input a key reaches

At any time a key can reach the session, the text of the word problem, or neither. It reaches the session
by one of the session's own actions, and the text by one of three edits. So a run of the calculator leaves
two lists behind, and they account for both: the session is the first one after the actions, and the text
of the problem is the empty one after the edits. The help page keeps every key from both.

## Contents

* `Desk.action?`, `Desk.edit?` — what an event comes to
* `Desk.actions`, `Desk.edits` — what a run comes to
* `Desk.perform_session`, `Desk.perform_problem` — one event
* `Desk.run_session`, `Desk.run_problem` — any number of them
* `App.run_reaches_one_input` — the calculator
-/

namespace Calculator

namespace Desk

/-- The action on the session that an event comes to. -/
def action? (desk : Desk) (event : App.Event) : Option Session.Action :=
  match desk.purpose event with
  | .act action => some action
  | .walk direction => (desk.reached? direction).map fun found => .select found.2.id
  | _ => none

/-- The edit of the word problem that an event comes to. -/
def edit? (desk : Desk) (event : App.Event) : Option ProblemEdit :=
  match desk.purpose event with
  | .edit edit => some edit
  | _ => none

/-- The actions on the session that a run comes to, the first one first. -/
def actions (desk : Desk) : List App.Event → List Session.Action
  | [] => []
  | event :: events => (desk.action? event).toList ++ (desk.perform event).actions events

/-- The edits of the word problem that a run comes to, the first one first. -/
def edits (desk : Desk) : List App.Event → List ProblemEdit
  | [] => []
  | event :: events => (desk.edit? event).toList ++ (desk.perform event).edits events

section

variable {desk : Desk} {event : App.Event} {id : String}

/-! ## One event -/

theorem perform_session (desk : Desk) (event : App.Event) :
    (desk.perform event).session = desk.session.run (desk.action? event).toList := by
  unfold perform action?
  cases desk.purpose event with
  | walk direction =>
      simp only [serve]
      cases desk.reached? direction with
      | none => rfl
      | some found => rfl
  | _ => rfl

theorem perform_problem (desk : Desk) (event : App.Event) :
    (desk.perform event).problem = (desk.edit? event).toList.foldl ProblemEdit.apply desk.problem := by
  unfold perform edit?
  cases desk.purpose event with
  | walk direction =>
      simp only [serve]
      cases desk.reached? direction with
      | none => rfl
      | some found => rfl
  | _ => rfl

/-- No event reaches both inputs. -/
theorem action?_eq_none_or (desk : Desk) (event : App.Event) :
    desk.action? event = none ∨ desk.edit? event = none := by
  unfold action? edit?
  cases desk.purpose event with
  | edit edit => exact .inl rfl
  | _ => exact .inr rfl

/-! ### Recall

Entries are recalled by walking to them, and by no other way. -/

theorem inHelp_ne_act (scroll : Nat) (code : KeyCode) (action : Session.Action) :
    Purpose.inHelp scroll code ≠ .act action := by
  unfold Purpose.inHelp
  split <;> simp

theorem inEither_ne_act (key : Key) (action : Session.Action) :
    Purpose.inEither key ≠ .act action := by
  unfold Purpose.inEither
  split
  · split <;> simp
  · split <;> simp

theorem typed_ne_select (stamp : Stamp) (c : Char) (id : String) :
    Purpose.typed stamp c ≠ .select id := by
  unfold Purpose.typed
  split_ifs <;> simp

theorem inExpression_ne_select (stamp : Stamp) (key : Key) (id : String) :
    Purpose.inExpression stamp key ≠ .act (.select id) := by
  obtain ⟨code, control, alt⟩ := key
  have heither := inEither_ne_act ⟨code, control, alt⟩ (.select id)
  unfold Purpose.inExpression
  cases control with
  | true =>
      simp only
      split
      · simp
      · simp
      · simp
      · simp
      · exact heither
  | false =>
      cases code with
      | character c => exact fun h => typed_ne_select stamp c id (Purpose.act.inj h)
      | enter => simp
      | backspace => simp
      | escape => simp
      | _ => exact heither

theorem inProblem_ne_act (key : Key) (action : Session.Action) :
    Purpose.inProblem key ≠ .act action := by
  obtain ⟨code, control, alt⟩ := key
  have heither := inEither_ne_act ⟨code, control, alt⟩ action
  unfold Purpose.inProblem
  cases control with
  | true =>
      simp only
      split
      · simp
      · simp
      · simp
      · simp
      · exact heither
  | false =>
      cases code with
      | character c => simp
      | backspace => simp
      | escape => simp
      | _ => exact heither

theorem purpose_ne_select (desk : Desk) (event : App.Event) (id : String) :
    desk.purpose event ≠ .act (.select id) := by
  cases event with
  | key stamp key =>
      cases hhelp : desk.help with
      | some scroll =>
          rw [purpose_of_help hhelp]
          exact inHelp_ne_act scroll key.code _
      | none =>
          cases hinput : desk.input with
          | expression =>
              rw [purpose_of_expression hhelp hinput]
              exact inExpression_ne_select stamp key id
          | problem =>
              rw [purpose_of_problem hhelp hinput]
              exact inProblem_ne_act key _
  | token text =>
      simp only [purpose]
      split <;> simp
  | _ => simp [purpose]

theorem mem_history_of_reached? {direction : Int} {found : Nat × Calculation}
    (h : desk.reached? direction = some found) : found.2 ∈ desk.session.history := by
  obtain ⟨i, -, hfound⟩ := Option.bind_eq_some_iff.mp h
  obtain ⟨entry, hentry, rfl⟩ := Option.map_eq_some_iff.mp hfound
  exact List.mem_of_getElem? hentry

/-- What is recalled is an entry of the history. -/
theorem mem_history_of_select (h : desk.action? event = some (.select id)) :
    ∃ entry ∈ desk.session.history, entry.id = id := by
  unfold action? at h
  split at h
  · rename_i action hpurpose
    obtain rfl := Option.some.inj h
    exact absurd hpurpose (desk.purpose_ne_select event id)
  · obtain ⟨found, hfound, hselect⟩ := Option.map_eq_some_iff.mp h
    exact ⟨found.2, mem_history_of_reached? hfound, Session.Action.select.inj hselect⟩
  · exact absurd h (by simp)

/-! ## Any number of events -/

theorem run_session (desk : Desk) (events : List App.Event) :
    (desk.run events).session = desk.session.run (desk.actions events) := by
  induction events generalizing desk with
  | nil => rfl
  | cons event events ih =>
      calc (desk.run (event :: events)).session
          = (desk.perform event).session.run ((desk.perform event).actions events) :=
            ih (desk.perform event)
        _ = (desk.session.run (desk.action? event).toList).run
              ((desk.perform event).actions events) := by rw [perform_session]
        _ = desk.session.run (desk.actions (event :: events)) := List.foldl_append.symm

theorem run_problem (desk : Desk) (events : List App.Event) :
    (desk.run events).problem = (desk.edits events).foldl ProblemEdit.apply desk.problem := by
  induction events generalizing desk with
  | nil => rfl
  | cons event events ih =>
      calc (desk.run (event :: events)).problem
          = ((desk.perform event).edits events).foldl ProblemEdit.apply
              (desk.perform event).problem := ih (desk.perform event)
        _ = ((desk.perform event).edits events).foldl ProblemEdit.apply
              ((desk.edit? event).toList.foldl ProblemEdit.apply desk.problem) := by
            rw [perform_problem]
        _ = (desk.edits (event :: events)).foldl ProblemEdit.apply desk.problem :=
            List.foldl_append.symm

end

end Desk

namespace App

/-! ## The calculator -/

section

variable {app : App} {event : Event} {stamp : Stamp} {key : Key} {scroll : Nat}

/-- No event changes both inputs. -/
theorem perform_changes_one_input (app : App) (event : Event) :
    (app.perform event).session = app.session ∨ (app.perform event).problem = app.problem := by
  have hdesk := app.desk_perform event
  rcases app.desk.action?_eq_none_or event with hnone | hnone
  · left
    calc (app.perform event).session = (app.desk.perform event).session :=
          congrArg Desk.session hdesk
      _ = app.session := by rw [Desk.perform_session, hnone]; rfl
  · right
    calc (app.perform event).problem = (app.desk.perform event).problem :=
          congrArg Desk.problem hdesk
      _ = app.problem := by rw [Desk.perform_problem, hnone]; rfl

/-- The escape key leaves the word problem and does nothing else. -/
theorem press_escape_of_problem (hhelp : app.help = none) (hinput : app.input = .problem)
    (hcontrol : key.control = false) (hcode : key.code = .escape) :
    app.press stamp key = { app with input := .expression } := by
  unfold press
  rw [hhelp, hcontrol, hcode]
  show app.pressEscape = _
  cases app
  cases hinput
  cases hhelp
  rfl

/-- While the help page is open a key does nothing but turn or close it. -/
theorem press_of_help (h : app.help = some scroll) :
    ∃ help, app.press stamp key = { app with help := help } := by
  have hself : app = { app with help := some scroll } := by rw [← h]
  have hpress : app.press stamp key = app.pressInHelp scroll key.code := by
    unfold press
    rw [h]
  rw [hpress]
  unfold pressInHelp
  split
  case h_7 => exact ⟨some scroll, hself⟩
  all_goals exact ⟨_, rfl⟩

end

/-- **Every event reaches one input at most.** After any events the `session` is the first one after the
actions that the events come to (`Desk.actions`), and the `problem` is the empty text after their
`Desk.edits`. No event changes both; a `select` names an entry of the history; `escape` leaves the box of the
problem and does nothing else; and while `help` is open `press` changes nothing but the page. -/
theorem run_reaches_one_input (session : Session) (messenger : Option Messenger)
    (events : List Event) :
    let desk := Desk.start session
    let now := (start session messenger).run events
    now.desk = desk.run events ∧
    now.session = session.run (desk.actions events) ∧
    now.problem = (desk.edits events).foldl ProblemEdit.apply [] ∧
    (∀ event, (now.perform event).session = now.session ∨
      (now.perform event).problem = now.problem) ∧
    (∀ event id, now.desk.action? event = some (.select id) →
      ∃ entry ∈ now.session.history, entry.id = id) ∧
    (∀ stamp key, now.help = none → now.input = .problem → key.control = false →
      key.code = .escape → now.press stamp key = { now with input := .expression }) ∧
    (∀ stamp key scroll, now.help = some scroll →
      ∃ help, now.press stamp key = { now with help := help }) := by
  intro desk now
  have hdesk : now.desk = desk.run events := desk_run (start session messenger) events
  refine ⟨hdesk, ?_, ?_, now.perform_changes_one_input, fun _ _ => Desk.mem_history_of_select,
    fun _ _ => press_escape_of_problem, fun _ _ _ => press_of_help⟩
  · exact (congrArg Desk.session hdesk).trans (desk.run_session events)
  · exact (congrArg Desk.problem hdesk).trans (desk.run_problem events)

end App

end Calculator
