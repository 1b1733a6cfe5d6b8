import Calculator.Screen.Help

/-!
# `Screen.Layout` — where the panes are

The display is at the top and the keys are at the bottom. Between them the graph stands over the
history, and beside these two the explanation stands over the word problem.

## Contents

* `displayArea`, `graphArea`, … — the areas of the panes
* `screen` — all panes
* `App.onTerminal`, `App.picture` — what a terminal shows
-/

namespace Calculator.Screen

/-- Rows of the display with its frame. -/
def displayRows : Nat := 4

/-- Rows of the history with its frame. -/
def historyRows : Nat := 12

/-- Rows that the graph keeps with its frame even if the history then gets fewer. -/
def leastGraphRows : Nat := 6

/-- Rows of the word problem with its frame. -/
def problemRows : Nat := 3

/-- Columns of the graph: six tenths of all, rounded. -/
def graphColumns (width : Nat) : Nat := (6 * width + 5) / 10

/-- Rows between the display and the keys. -/
def middleRows (height : Nat) : Nat := height - displayRows - 1

/-- Rows of the graph. -/
def graphRows (height : Nat) : Nat := max leastGraphRows (middleRows height - historyRows)

/-- The area of the display. -/
def displayArea (width : Nat) : Area := ⟨0, 0, width, displayRows⟩

/-- The area of the graph. -/
def graphArea (width height : Nat) : Area := ⟨0, displayRows, graphColumns width, graphRows height⟩

/-- The area of the history. -/
def historyArea (width height : Nat) : Area :=
  ⟨0, displayRows + graphRows height, graphColumns width, middleRows height - graphRows height⟩

/-- The area of the explanation. -/
def analysisArea (width height : Nat) : Area :=
  ⟨graphColumns width, displayRows, width - graphColumns width, middleRows height - problemRows⟩

/-- The area of the word problem. -/
def problemArea (width height : Nat) : Area :=
  ⟨graphColumns width, displayRows + (middleRows height - problemRows), width - graphColumns width,
    problemRows⟩

/-- The area of the keys. -/
def statusArea (width height : Nat) : Area := ⟨0, height - 1, width, 1⟩

/-- All panes, or what to do about a small terminal. -/
def screen (app : App) (width height : Nat) : Picture :=
  let picture := Picture.blank width height
  if isTooSmall width height then resizePane ⟨0, 0, width, height⟩ picture
  else
    let picture := displayPane app (displayArea width) picture
    let picture := graphPane app (graphArea width height) picture
    let picture := historyPane app (historyArea width height) picture
    let picture := analysisPane app (analysisArea width height) picture
    let picture := problemPane app (problemArea width height) picture
    statusPane (statusArea width height) picture

end Calculator.Screen

namespace Calculator.App

/-- The calculator on a terminal of some size, which it takes note of. -/
def onTerminal (app : App) (width height : Nat) : App :=
  { app with tooSmall := Screen.isTooSmall width height }

/-- What a terminal shows: the page of help while it is open, and otherwise all panes. -/
def picture (app : App) (width height : Nat) : Screen.Picture :=
  match app.help with
  | some scroll =>
    Screen.helpPane scroll ⟨0, 0, width, height⟩ (Screen.Picture.blank width height)
  | none => Screen.screen app width height

end Calculator.App
