import Calculator.App.Messenger
import Calculator.Keyboard
import Calculator.Session.State

/-!
# `App.State` — the calculator on the screen

Around the session there is a second input, for word problems, a panel that explains, a walk through the
history, and a page of help. Typing goes to one of the two inputs at a time. The explanation that was
found last stays when a later inquiry fails.

## Contents

* `Input`, `Panel`, `App` — the state
* `App.type`, `App.backspace`, `App.clear`, `App.submit` — typing
* `App.inquire`, `App.poll` — explanations
* `App.navigate` — the walk through the history
-/

namespace Calculator

/-- The input that typing goes to. -/
inductive Input where
  | expression
  | problem
deriving Repr, DecidableEq

/-- How the last `Inquiry` stands. -/
inductive Panel where
  | idle
  | loading (subject : Subject)
  | ready
  | failed (subject : Subject)
deriving Repr, DecidableEq

/-- The state of the calculator. The `help` page is open while it has a number of lines by which it is
scrolled. -/
structure App where
  session : Session
  input : Input
  problem : List Char
  panel : Panel
  analysis : Option Analysis
  messenger : Option Messenger
  recalled : Option Nat
  quitting : Bool
  help : Option Nat
  tooSmall : Bool

namespace App

/-- The calculator at the start of a session. -/
def start (session : Session) (messenger : Option Messenger) : App :=
  { session := session
    input := .expression
    problem := []
    panel := .idle
    analysis := none
    messenger := messenger
    recalled := none
    quitting := false
    help := none
    tooSmall := false }

/-! ## Typing -/

/-- Evaluates the expression (`Session.evaluate`); the walk through the history begins anew. -/
def evaluate (app : App) (stamp : Stamp) : App :=
  { app with session := app.session.evaluate stamp, recalled := none }

/-- Adds text to the expression. -/
def append (app : App) (text : String) : App := { app with session := app.session.append text }

/-- Types a character, in an expression as its `keypadGlyph`. There the equals sign does `evaluate`. -/
def type (app : App) (stamp : Stamp) (c : Char) : App :=
  match app.input with
  | .problem => { app with problem := app.problem ++ [c] }
  | .expression =>
    if c = '=' then app.evaluate stamp else app.append (String.singleton (keypadGlyph c))

/-- Adds a word of the keypad to the expression; the `problem` takes none. -/
def typeWord (app : App) (token : String) : App :=
  match app.input with
  | .problem => app
  | .expression => app.append token

/-- Types π, for which there is no key. -/
def typePi (app : App) : App :=
  match app.input with
  | .problem => { app with problem := app.problem ++ ['π'] }
  | .expression => app.append "π"

/-- Takes back the last symbol of the expression (`Session.eraseLast`) or the last character of the
`problem`. -/
def backspace (app : App) : App :=
  match app.input with
  | .problem => { app with problem := app.problem.dropLast }
  | .expression => { app with session := app.session.eraseLast }

/-- Empties the input. -/
def clear (app : App) : App :=
  match app.input with
  | .problem => { app with problem := [] }
  | .expression => { app with session := app.session.clear, recalled := none }

/-- Switches to the other input. -/
def switchInput (app : App) : App :=
  { app with
    input := match app.input with
      | .expression => .problem
      | .problem => .expression }

/-! ## Explanations -/

/-- Hands an inquiry to the messenger (`Messenger.submit`) and shows it as `loading`, unless one is `loading`.
Without a messenger it has `failed` at once. -/
def inquire (app : App) (inquiry : Inquiry) : App :=
  match app.panel with
  | .loading _ => app
  | _ =>
    match app.messenger with
    | some messenger =>
      { app with
        messenger := some (messenger.submit inquiry), panel := .loading inquiry.subject }
    | none => { app with panel := .failed inquiry.subject }

/-- Does `inquire` about the expression, if there is one. -/
def analyze (app : App) : App :=
  if app.session.expression.isEmpty then app
  else app.inquire ⟨.expression, app.session.expression⟩

/-- Does `inquire` about the word problem without the blanks around it, if anything is left. -/
def solve (app : App) : App :=
  let problem := Text.trim app.problem
  if problem = [] then app else app.inquire ⟨.wordProblem, String.ofList problem⟩

/-- Finishes the input: `evaluate` for an expression, `solve` for a word problem. -/
def submit (app : App) (stamp : Stamp) : App :=
  match app.input with
  | .problem => app.solve
  | .expression => app.evaluate stamp

/-- Takes over a `Finding`; one that failed leaves the last `analysis` in place. -/
def present (app : App) (finding : Finding) : App :=
  match finding.outcome with
  | .ok analysis => { app with analysis := some analysis, panel := .ready }
  | .error _ => { app with panel := .failed finding.subject }

/-- Picks up a finding (`Messenger.collect`) and does `present` with it, if there is one. -/
def poll (app : App) : App :=
  match app.messenger.bind Messenger.collect with
  | none => app
  | some (finding, messenger) => { app with messenger := some messenger }.present finding

/-- Lets the messenger take a `step`. -/
def withMessenger (app : App) (step : Messenger → Messenger) : App :=
  { app with messenger := app.messenger.map step }

/-! ## The walk through the history -/

/-- The entry that a walk of `length` entries leads to from where it stands: a negative direction to a
newer one, any other to an older one. The walk begins at the newest and does not go beyond either
end. -/
def walkTo? (length : Nat) (direction : Int) (recalled : Option Nat) : Option Nat :=
  if length = 0 then none
  else
    match recalled with
    | none => if 0 < direction then some 0 else none
    | some i =>
      if direction < 0 then if i = 0 then none else some (i - 1)
      else some (min (i + 1) (length - 1))

/-- Shows the entry of the history that `walkTo?` leads to, if it leads to one. -/
def navigate (app : App) (direction : Int) : App :=
  match walkTo? app.session.history.length direction app.recalled with
  | none => app
  | some i =>
    match app.session.history[i]? with
    | none => app
    | some entry => { app with session := app.session.select entry.id, recalled := some i }

end App

end Calculator
