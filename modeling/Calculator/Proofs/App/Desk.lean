import Calculator.Proofs.App.InFlight
import Calculator.Proofs.Session.Run

/-!
# `Proofs.App.Desk` — what is a matter of the calculator alone

Apart from its explanations the calculator is a machine of its own: the session, the two inputs, the walk
through the history, the help page, and whether to quit. Here this machine is described by what each key
is for. The keys are laid out once for the help page and once for each of the two inputs, with those that
do the same in both set apart, and a purpose is served in one way wherever it comes from.

The calculator arrives at the same by another way, since it looks at the control key first and at the
input only when a key has already been told apart. Both ways come to the same desk after every event,
whatever has become of messenger, panel and explanation.

## Contents

* `Desk`, `App.desk` — the part that the user works at
* `Purpose` — what can be done at the desk
* `Purpose.inHelp`, `Purpose.inExpression`, `Purpose.inProblem`, `Purpose.inEither` — the keys
* `Purpose.typed` — what a character does to the expression
* `Desk.serve`, `Desk.perform`, `Desk.run` — purposes served
* `desk_perform`, `desk_run` — the calculator's desk is this machine
-/

namespace Calculator

/-- The part of the calculator that the user works at. -/
structure Desk where
  session : Session
  input : Input
  problem : List Char
  recalled : Option Nat
  quitting : Bool
  help : Option Nat

/-- What can be done to the text of a word problem. -/
inductive ProblemEdit where
  | push (c : Char)
  | pop
  | empty
deriving Repr, DecidableEq

/-- The text of a word problem after an edit. -/
def ProblemEdit.apply (problem : List Char) : ProblemEdit → List Char
  | .push c => problem ++ [c]
  | .pop => problem.dropLast
  | .empty => []

/-- What can be done at the desk. -/
inductive Purpose where
  | act (action : Session.Action)
  | walk (direction : Int)
  | edit (edit : ProblemEdit)
  | switch
  | turn (help : Option Nat)
  | quit
  | nothing

/-! ## Keys -/

namespace Purpose

/-- A key while the help page is open. Whatever else is held down makes no difference. -/
def inHelp (scroll : Nat) (code : KeyCode) : Purpose :=
  match code with
  | .down => .turn (some (min (scroll + 1) App.greatestScroll))
  | .up => .turn (some (scroll - 1))
  | .pageDown => .turn (some (min (scroll + App.pageLines) App.greatestScroll))
  | .pageUp => .turn (some (scroll - App.pageLines))
  | .escape | .function 1 => .turn none
  | _ => .nothing

/-- A key that does the same whatever is typed into. To ask for an explanation is nothing here. -/
def inEither (key : Key) : Purpose :=
  match key.control with
  | true =>
    match key.code with
    | .character 'c' | .character 'q' => .quit
    | _ => .nothing
  | false =>
    match key.code with
    | .up => .walk (-1)
    | .down => .walk 1
    | .function 1 => .turn (some 0)
    | .function 3 => .switch
    | _ => .nothing

/-- What a character does to the expression: the equals sign calculates, two signs appear as the keypad
has them, and every other character appears as it is. -/
def typed (stamp : Stamp) (c : Char) : Session.Action :=
  if c = '=' then .evaluate stamp
  else if c = '*' then .append "×"
  else if c = '/' then .append "÷"
  else .append (String.singleton c)

/-- A key while the expression is typed into. -/
def inExpression (stamp : Stamp) (key : Key) : Purpose :=
  match key.control with
  | true =>
    match key.code with
    | .character 'u' | .character 'U' => .act .clear
    | .character 'p' | .character 'P' => .act (.append "π")
    | _ => inEither key
  | false =>
    match key.code with
    | .character c => .act (typed stamp c)
    | .enter => .act (.evaluate stamp)
    | .backspace => .act .eraseLast
    | .escape => .act .clear
    | _ => inEither key

/-- A key while the word problem is typed into. -/
def inProblem (key : Key) : Purpose :=
  match key.control with
  | true =>
    match key.code with
    | .character 'u' | .character 'U' => .edit .empty
    | .character 'p' | .character 'P' => .edit (.push 'π')
    | _ => inEither key
  | false =>
    match key.code with
    | .character c => .edit (.push c)
    | .backspace => .edit .pop
    | .escape => .switch
    | _ => inEither key

end Purpose

namespace Desk

/-- The desk at the start of a session. -/
def start (session : Session) : Desk :=
  { session := session
    input := .expression
    problem := []
    recalled := none
    quitting := false
    help := none }

/-- What an event is for. -/
def purpose (desk : Desk) : App.Event → Purpose
  | .key stamp key =>
    match desk.help, desk.input with
    | some scroll, _ => .inHelp scroll key.code
    | none, .expression => .inExpression stamp key
    | none, .problem => .inProblem key
  | .token text =>
    match desk.input with
    | .expression => .act (.append text)
    | .problem => .nothing
  | .navigate direction => .walk direction
  | .poll | .take | .finish _ => .nothing

/-! ## Purposes -/

/-- The entry of the history that a step of the walk leads to, with its place. -/
def reached? (desk : Desk) (direction : Int) : Option (Nat × Calculation) :=
  (App.walkTo? desk.session.history.length direction desk.recalled).bind fun i =>
    desk.session.history[i]?.map fun entry => (i, entry)

/-- The walk after an action: one that calculates or clears ends it. -/
def recalledAfter (desk : Desk) : Session.Action → Option Nat
  | .evaluate _ | .clear => none
  | _ => desk.recalled

/-- The desk after a purpose is served. -/
def serve (desk : Desk) : Purpose → Desk
  | .act action =>
    { desk with session := desk.session.perform action, recalled := desk.recalledAfter action }
  | .walk direction =>
    match desk.reached? direction with
    | none => desk
    | some (i, entry) =>
      { desk with session := desk.session.perform (.select entry.id), recalled := some i }
  | .edit edit => { desk with problem := edit.apply desk.problem }
  | .switch =>
    { desk with
      input := match desk.input with
        | .expression => .problem
        | .problem => .expression }
  | .turn help => { desk with help := help }
  | .quit => { desk with quitting := true }
  | .nothing => desk

/-- The desk after an event. -/
def perform (desk : Desk) (event : App.Event) : Desk := desk.serve (desk.purpose event)

/-- The desk after some events, the first one first. -/
def run (desk : Desk) (events : List App.Event) : Desk := events.foldl perform desk

section

variable {desk : Desk} {stamp : Stamp} {key : Key} {scroll : Nat}

theorem purpose_of_help (h : desk.help = some scroll) :
    desk.purpose (.key stamp key) = .inHelp scroll key.code := by
  simp only [purpose, h]

theorem purpose_of_expression (h : desk.help = none) (hinput : desk.input = .expression) :
    desk.purpose (.key stamp key) = .inExpression stamp key := by
  simp only [purpose, h, hinput]

theorem purpose_of_problem (h : desk.help = none) (hinput : desk.input = .problem) :
    desk.purpose (.key stamp key) = .inProblem key := by
  simp only [purpose, h, hinput]

end

end Desk

/-! ## The calculator's desk -/

namespace App

/-- The part of the calculator that the user works at. -/
def desk (app : App) : Desk :=
  { session := app.session
    input := app.input
    problem := app.problem
    recalled := app.recalled
    quitting := app.quitting
    help := app.help }

section

variable {app : App}

theorem desk_inquire (app : App) (inquiry : Inquiry) : (app.inquire inquiry).desk = app.desk := by
  unfold inquire
  split
  · rfl
  · split <;> rfl

theorem desk_analyze (app : App) : app.analyze.desk = app.desk := by
  rcases app.analyze_cases with hsame | ⟨inquiry, -, hasks⟩
  · rw [hsame]
  · rw [hasks, desk_inquire]

theorem desk_solve (app : App) : app.solve.desk = app.desk := by
  rcases app.solve_cases with hsame | ⟨inquiry, -, hasks⟩
  · rw [hsame]
  · rw [hasks, desk_inquire]

theorem desk_present (app : App) (finding : Finding) : (app.present finding).desk = app.desk := by
  unfold present
  split <;> rfl

theorem desk_poll (app : App) : app.poll.desk = app.desk := by
  unfold poll
  split
  · rfl
  · exact desk_present _ _

theorem desk_withMessenger (app : App) (step : Messenger → Messenger) :
    (app.withMessenger step).desk = app.desk := rfl

theorem desk_navigate (app : App) (direction : Int) :
    (app.navigate direction).desk = app.desk.serve (.walk direction) := by
  unfold navigate
  simp only [Desk.serve, Desk.reached?, desk]
  cases hwalk : walkTo? app.session.history.length direction app.recalled with
  | none => rfl
  | some i =>
      simp only [Option.bind_some]
      cases hentry : app.session.history[i]? with
      | none => rfl
      | some entry => rfl

theorem desk_pressInHelp (app : App) (scroll : Nat) (code : KeyCode) :
    (app.pressInHelp scroll code).desk = app.desk.serve (.inHelp scroll code) := by
  cases code with
  | function number =>
      match number with
      | 1 => rfl
      | 0 => rfl
      | _ + 2 => rfl
  | _ => rfl

/-! ### Operations, by the input that is typed into -/

theorem desk_evaluate (app : App) (stamp : Stamp) :
    (app.evaluate stamp).desk = app.desk.serve (.act (.evaluate stamp)) := rfl

theorem desk_switchInput (app : App) : app.switchInput.desk = app.desk.serve .switch := rfl

theorem desk_clear_expression (h : app.input = .expression) :
    app.clear.desk = app.desk.serve (.act .clear) := by
  cases app
  cases h
  rfl

theorem desk_clear_problem (h : app.input = .problem) :
    app.clear.desk = app.desk.serve (.edit .empty) := by
  cases app
  cases h
  rfl

theorem desk_typePi_expression (h : app.input = .expression) :
    app.typePi.desk = app.desk.serve (.act (.append "π")) := by
  cases app
  cases h
  rfl

theorem desk_typePi_problem (h : app.input = .problem) :
    app.typePi.desk = app.desk.serve (.edit (.push 'π')) := by
  cases app
  cases h
  rfl

theorem desk_backspace_expression (h : app.input = .expression) :
    app.backspace.desk = app.desk.serve (.act .eraseLast) := by
  cases app
  cases h
  rfl

theorem desk_backspace_problem (h : app.input = .problem) :
    app.backspace.desk = app.desk.serve (.edit .pop) := by
  cases app
  cases h
  rfl

theorem desk_type_expression (h : app.input = .expression) (stamp : Stamp) (c : Char) :
    (app.type stamp c).desk = app.desk.serve (.act (Purpose.typed stamp c)) := by
  unfold type Purpose.typed
  rw [h]
  simp only
  by_cases hequals : c = '='
  · rw [if_pos hequals, if_pos hequals]
    rfl
  rw [if_neg hequals, if_neg hequals]
  by_cases htimes : c = '*'
  · rw [if_pos htimes, htimes]
    rfl
  rw [if_neg htimes]
  by_cases hover : c = '/'
  · rw [if_pos hover, hover]
    rfl
  rw [if_neg hover]
  -- any other character is its own glyph
  have hplain : keypadGlyph c = c := by
    unfold keypadGlyph
    split
    · exact absurd rfl htimes
    · exact absurd rfl hover
    · rfl
  rw [hplain]
  rfl

theorem desk_type_problem (h : app.input = .problem) (stamp : Stamp) (c : Char) :
    (app.type stamp c).desk = app.desk.serve (.edit (.push c)) := by
  cases app
  cases h
  rfl

theorem desk_pressEscape_expression (h : app.input = .expression) :
    app.pressEscape.desk = app.desk.serve (.act .clear) := by
  unfold pressEscape
  rw [h]
  exact desk_clear_expression h

theorem desk_pressEscape_problem (h : app.input = .problem) :
    app.pressEscape.desk = app.desk.serve .switch := by
  unfold pressEscape
  rw [h]
  exact app.desk_switchInput

theorem desk_submit_expression (h : app.input = .expression) (stamp : Stamp) :
    (app.submit stamp).desk = app.desk.serve (.act (.evaluate stamp)) := by
  unfold submit
  rw [h]
  exact app.desk_evaluate stamp

theorem desk_submit_problem (h : app.input = .problem) (stamp : Stamp) :
    (app.submit stamp).desk = app.desk := by
  unfold submit
  rw [h]
  exact app.desk_solve

theorem desk_typeWord (app : App) (text : String) :
    (app.typeWord text).desk = app.desk.perform (.token text) := by
  obtain ⟨_, input, _, _, _, _, _, _, _, _⟩ := app
  cases input with
  | expression => rfl
  | problem => rfl

/-! ### Keys -/

theorem desk_pressWithControl_expression (h : app.input = .expression) (stamp : Stamp)
    (code : KeyCode) (alt : Bool) :
    (app.pressWithControl code).desk =
      app.desk.serve (.inExpression stamp ⟨code, true, alt⟩) := by
  unfold pressWithControl
  split
  · rfl
  · rfl
  · exact desk_clear_expression h
  · exact desk_clear_expression h
  · exact desk_typePi_expression h
  · exact desk_typePi_expression h
  · have hnothing : Purpose.inExpression stamp ⟨code, true, alt⟩ = .nothing := by
      simp_all [Purpose.inExpression, Purpose.inEither]
    rw [hnothing]
    rfl

theorem desk_pressWithControl_problem (h : app.input = .problem) (code : KeyCode) (alt : Bool) :
    (app.pressWithControl code).desk = app.desk.serve (.inProblem ⟨code, true, alt⟩) := by
  unfold pressWithControl
  split
  · rfl
  · rfl
  · exact desk_clear_problem h
  · exact desk_clear_problem h
  · exact desk_typePi_problem h
  · exact desk_typePi_problem h
  · have hnothing : Purpose.inProblem ⟨code, true, alt⟩ = .nothing := by
      simp_all [Purpose.inProblem, Purpose.inEither]
    rw [hnothing]
    rfl

theorem desk_pressAlone_expression (h : app.input = .expression) (stamp : Stamp)
    (code : KeyCode) (alt : Bool) :
    (app.pressAlone stamp code).desk =
      app.desk.serve (.inExpression stamp ⟨code, false, alt⟩) := by
  cases code with
  | character c => exact desk_type_expression h stamp c
  | backspace => exact desk_backspace_expression h
  | enter => exact desk_submit_expression h stamp
  | escape => exact desk_pressEscape_expression h
  | up => exact app.desk_navigate (-1)
  | down => exact app.desk_navigate 1
  | function number =>
      match number with
      | 1 => rfl
      | 2 => exact app.desk_analyze
      | 3 => exact app.desk_switchInput
      | 0 => rfl
      | _ + 4 => rfl
  | _ => rfl

theorem desk_pressAlone_problem (h : app.input = .problem) (stamp : Stamp) (code : KeyCode)
    (alt : Bool) :
    (app.pressAlone stamp code).desk = app.desk.serve (.inProblem ⟨code, false, alt⟩) := by
  cases code with
  | character c => exact desk_type_problem h stamp c
  | backspace => exact desk_backspace_problem h
  | enter => exact desk_submit_problem h stamp
  | escape => exact desk_pressEscape_problem h
  | up => exact app.desk_navigate (-1)
  | down => exact app.desk_navigate 1
  | function number =>
      match number with
      | 1 => rfl
      | 2 => exact app.desk_analyze
      | 3 => exact app.desk_switchInput
      | 0 => rfl
      | _ + 4 => rfl
  | _ => rfl

theorem desk_press (app : App) (stamp : Stamp) (key : Key) :
    (app.press stamp key).desk = app.desk.perform (.key stamp key) := by
  obtain ⟨code, control, alt⟩ := key
  unfold press Desk.perform
  split
  · rename_i scroll hhelp
    rw [Desk.purpose_of_help hhelp]
    exact app.desk_pressInHelp scroll code
  · rename_i hhelp
    -- the calculator looks at the control key first, the desk at the input
    cases hinput : app.input with
    | expression =>
        rw [Desk.purpose_of_expression hhelp hinput]
        cases control with
        | true => exact desk_pressWithControl_expression hinput stamp code alt
        | false => exact desk_pressAlone_expression hinput stamp code alt
    | problem =>
        rw [Desk.purpose_of_problem hhelp hinput]
        cases control with
        | true => exact desk_pressWithControl_problem hinput code alt
        | false => exact desk_pressAlone_problem hinput stamp code alt

/-- **The calculator's desk is the machine**: `App.perform` does to the desk of a calculator what
`Desk.perform` does. -/
theorem desk_perform (app : App) (event : Event) :
    (app.perform event).desk = app.desk.perform event := by
  cases event with
  | key stamp key => exact app.desk_press stamp key
  | token text => exact app.desk_typeWord text
  | navigate direction => exact app.desk_navigate direction
  | poll => exact app.desk_poll
  | take => exact app.desk_withMessenger Messenger.take
  | finish outcome => exact app.desk_withMessenger fun messenger => messenger.finish outcome

theorem desk_run (app : App) (events : List Event) :
    (app.run events).desk = app.desk.run events := by
  induction events generalizing app with
  | nil => rfl
  | cons event events ih =>
      calc (app.run (event :: events)).desk = (app.perform event).desk.run events :=
            ih (app.perform event)
        _ = app.desk.run (event :: events) := by rw [desk_perform]; rfl

end

end App

end Calculator
