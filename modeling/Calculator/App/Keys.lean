import Calculator.App.State

/-!
# `App.Keys` — what keys do

Where a key leads depends on three things, in this order: whether the help page is open, whether the
control key is held, and which input is typed into.

## Contents

* `App.pressInHelp`, `App.pressWithControl`, `App.pressAlone` — the three cases
* `App.press` — a key
* `App.Event`, `App.perform` — everything that can happen to the calculator
-/

namespace Calculator.App

/-- The greatest number of lines that `help` can be scrolled by. -/
def greatestScroll : Nat := Nat.pow 2 64 - 1

/-- Lines that a page key scrolls by. -/
def pageLines : Nat := 10

/-- A key while `help` is open: it scrolls by a line or by `pageLines`, or closes the page. -/
def pressInHelp (app : App) (scroll : Nat) (code : KeyCode) : App :=
  match code with
  | .down => { app with help := some (min (scroll + 1) greatestScroll) }
  | .up => { app with help := some (scroll - 1) }
  | .pageDown => { app with help := some (min (scroll + pageLines) greatestScroll) }
  | .pageUp => { app with help := some (scroll - pageLines) }
  | .escape | .function 1 => { app with help := none }
  | _ => app

/-- A key while the control key is held. -/
def pressWithControl (app : App) (code : KeyCode) : App :=
  match code with
  | .character 'c' | .character 'q' => { app with quitting := true }
  | .character 'u' | .character 'U' => app.clear
  | .character 'p' | .character 'P' => app.typePi
  | _ => app

/-- Leaves the word problem (`switchInput`), or does `clear` to the expression. -/
def pressEscape (app : App) : App :=
  match app.input with
  | .problem => app.switchInput
  | .expression => app.clear

/-- A key by itself. -/
def pressAlone (app : App) (stamp : Stamp) (code : KeyCode) : App :=
  match code with
  | .character c => app.type stamp c
  | .backspace => app.backspace
  | .enter => app.submit stamp
  | .escape => app.pressEscape
  | .up => app.navigate (-1)
  | .down => app.navigate 1
  | .function 1 => { app with help := some 0 }
  | .function 2 => app.analyze
  | .function 3 => app.switchInput
  | _ => app

/-- A key: `pressInHelp` while `help` is open, otherwise `pressWithControl` or `pressAlone`. -/
def press (app : App) (stamp : Stamp) (key : Key) : App :=
  match app.help with
  | some scroll => app.pressInHelp scroll key.code
  | none =>
    if key.control then app.pressWithControl key.code else app.pressAlone stamp key.code

/-- Everything that can happen to the calculator: a `key`, a word of the keypad (`token`), a step through the
history (`navigate`), a look whether a finding has come back (`poll`), and the messenger's own steps (`take`,
`finish`). -/
inductive Event where
  | key (stamp : Stamp) (key : Key)
  | token (text : String)
  | navigate (direction : Int)
  | poll
  | take
  | finish (outcome : Except AnalysisError Analysis)

/-- The calculator after an `Event`. -/
def perform (app : App) : Event → App
  | .key stamp key => app.press stamp key
  | .token text => app.typeWord text
  | .navigate direction => app.navigate direction
  | .poll => app.poll
  | .take => app.withMessenger Messenger.take
  | .finish outcome => app.withMessenger fun messenger => messenger.finish outcome

end Calculator.App
