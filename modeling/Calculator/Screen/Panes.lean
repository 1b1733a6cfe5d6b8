import Calculator.App.State
import Calculator.Expression.Highlight
import Calculator.Screen.Paragraph
import Calculator.Text.Wrap

/-!
# `Screen.Panes` — the parts of the screen

Each pane draws one part of the calculator's state into an area, most of them inside a frame.

## Contents

* `Picture` — a screen and where its cursor blinks
* `displayPane`, `problemPane` — the two inputs
* `graphPane`, `historyPane`, `analysisPane` — what came of them
* `statusPane`, `resizePane` — what to press, and what to do about a small terminal
-/

namespace Calculator.Screen

/-- A screen and where its cursor blinks, if it does. -/
structure Picture where
  canvas : Canvas
  cursor : Option (Nat × Nat)
deriving Repr, DecidableEq

namespace Picture

/-- An empty screen. -/
def blank (width height : Nat) : Picture := ⟨.blank width height, none⟩

/-- The picture with something drawn. -/
def draw (picture : Picture) (change : Canvas → Canvas) : Picture :=
  { picture with canvas := change picture.canvas }

/-- A thin frame with a title. -/
def framed (picture : Picture) (area : Area) (alignment : Alignment) (title : String) : Picture :=
  picture.draw fun canvas => canvas.frame area .single alignment title.toList

/-- Lines that are cut at the edge of an area. -/
def write (picture : Picture) (area : Area) (alignment : Alignment) (lines : List Line) : Picture :=
  picture.draw fun canvas => canvas.paragraph area .cut alignment 0 lines

/-- Lines that go on in the next row. -/
def flow (picture : Picture) (area : Area) (trim : Bool) (alignment : Alignment)
    (lines : List Line) : Picture :=
  picture.draw fun canvas => canvas.paragraph area (.flow trim) alignment 0 lines

end Picture

/-- The parts of an expression on the screen. -/
def expressionLine (expression : List Char) : Line := (highlight expression).map HighlightSpan.text

/-! ## The display -/

/-- The longest end of a text that takes at most `room` columns. -/
def endWithin (room : Nat) : List Char → List Char
  | [] => []
  | c :: rest => if Text.width (c :: rest) ≤ room then c :: rest else endWithin room rest

/-- The part of an expression that an input of some columns shows: its end, with a column to spare for
the cursor. -/
def visibleExpression (width : Nat) (expression : List Char) : List Char :=
  endWithin (width - 1) expression

/-- The lines of the display: the expression and the result. -/
def displayLines (session : Session) (width : Nat) : List Line :=
  [if session.expression.isEmpty then .ofText "Ready_"
    else expressionLine (visibleExpression width session.expression.toList),
    .ofText (if session.result.isEmpty then "0" else session.result)]

/-- The expression and the result, both at the right edge. -/
def displayPane (app : App) (area : Area) (picture : Picture) : Picture :=
  let inner := area.inner
  let picture := (picture.framed area .center " Display ").write inner .right
    (displayLines app.session inner.width)
  if app.input = .expression then
    { picture with cursor := some (inner.left + (inner.width - 1), inner.top) }
  else picture

/-! ## The word problem -/

/-- The mark in front of a word problem. -/
def problemMark : List Char := "> ".toList

/-- The part of a word problem that an input of some columns shows: its last characters, as many as
there are columns beside the mark. -/
def visibleProblem (width : Nat) (problem : List Char) : List Char :=
  problem.drop (problem.length - (width - problemMark.length))

/-- The word problem, or an invitation to enter one. -/
def problemPane (app : App) (area : Area) (picture : Picture) : Picture :=
  let inner := area.inner
  let focused := app.input = .problem
  let visible := visibleProblem inner.width app.problem
  let line : Line :=
    if app.problem = [] ∧ ¬focused then .ofText "ENTER WORD PROBLEM TO SOLVE..."
    else [problemMark ++ visible]
  let picture := (picture.framed area .left " Word problem (F3) ").write inner .left [line]
  if focused then
    let x := inner.left + problemMark.length + Text.width visible
    { picture with cursor := some (min x (inner.left + (inner.width - 1)), inner.top) }
  else picture

/-! ## The graph -/

/-- The title of the graph. -/
def graphTitle (session : Session) : String :=
  if session.showsGraph then " Graph // " ++ session.expression ++ " " else " Graph "

/-- What is said where no curve can be drawn. -/
def graphMessage (session : Session) : String :=
  if session.showsGraph then "Nothing to plot on this domain."
  else "Enter an expression in x and press Enter to plot it."

/-- The frame of the graph, with a message in it unless there are points. The curve itself is not made
of symbols and is left to a plotter. -/
def graphPane (app : App) (area : Area) (picture : Picture) : Picture :=
  let picture := picture.framed area .center (graphTitle app.session)
  if app.session.showsGraph ∧ app.session.points ≠ [] then picture
  else picture.write area.inner .center [.ofText (graphMessage app.session)]

/-! ## The history -/

/-- An entry of the history. -/
def entryLine (entry : Calculation) : Line :=
  [entry.timestamp.clock.text ++ [' ']] ++ expressionLine entry.expression.toList
    ++ [" = ".toList, entry.result.toList]

/-- The first entry that is shown: as few as possible are passed over for the selected one to be seen. -/
def firstShown (height : Nat) (selected : Option Nat) : Nat := selected.getD 0 + 1 - height

/-- Draws lines one below the other from row `y` on. -/
def listLines (canvas : Canvas) (area : Area) (y : Nat) : List Line → Canvas
  | [] => canvas
  | line :: rest => listLines (canvas.writeSpans area.left y area.width line) area (y + 1) rest

/-- The history, one entry to a row. -/
def historyPane (app : App) (area : Area) (picture : Picture) : Picture :=
  let inner := area.inner
  let picture := picture.framed area .center " History "
  let history := app.session.history
  if history = [] then picture.write inner .center [.ofText "No calculations yet."]
  else if inner.isEmpty then picture
  else
    let shown := (history.drop (firstShown inner.height app.recalled)).take inner.height
    picture.draw fun canvas => listLines canvas inner inner.top (shown.map entryLine)

/-! ## The explanation -/

/-- How the last inquiry stands, if there is anything to say about it. -/
def panelLines : Panel → List Line
  | .idle | .ready => []
  | .loading .expression => [.ofText "Analyzing expression..."]
  | .loading .wordProblem => [.ofText "Solving problem..."]
  | .failed subject => [.ofText subject.absenceMessage]

/-- A number in at least two columns. -/
def numberLabel (n : Nat) : List Char :=
  let digits := Nat.toDigits 10 n
  List.replicate (2 - digits.length) ' ' ++ digits

/-- A step, numbered, with its further lines below the first. -/
def stepLines (width number : Nat) (step : String) : List Line :=
  match Text.wrap width step.toList with
  | [] => []
  | first :: rest =>
    [numberLabel number ++ ". ".toList, first] :: rest.map fun line => ["    ".toList, line]

/-- All steps. -/
def stepsLines (width : Nat) (number : Nat) : List String → List Line
  | [] => []
  | step :: rest => stepLines width number step ++ stepsLines width (number + 1) rest

/-- An explanation. -/
def explanationLines (width : Nat) (analysis : Analysis) : List Line :=
  [Line.ofText "Explanation"]
    ++ (Text.wrap width analysis.explanation.toList).map (fun line => [line])
    ++ [Line.ofText "", Line.ofText "Steps"]
    ++ stepsLines width 1 analysis.steps
    ++ [Line.ofText "", Line.ofText "Related formulas"]
    ++ analysis.formulas.map fun formula => Line.ofText ("  " ++ formula)

/-- The lines about the last inquiry and the last explanation. -/
def analysisLines (app : App) (width : Nat) : List Line :=
  let status := panelLines app.panel
  match app.analysis with
  | none =>
    status ++ [Line.ofText "", Line.ofText "F2 analyzes the expression, F3 opens the word problem box."]
  | some analysis =>
    status ++ (if status = [] then [] else [Line.ofText ""]) ++ explanationLines width analysis

/-- Columns that lines of an explanation leave free for what stands in front of a step. -/
def stepIndent : Nat := 4

/-- The explanation. -/
def analysisPane (app : App) (area : Area) (picture : Picture) : Picture :=
  let inner := area.inner
  (picture.framed area .center " Analysis ").flow inner false .left
    (analysisLines app (inner.width - stepIndent))

/-! ## Other lines -/

/-- The keys and what they do. -/
def keyHints : List (String × String) :=
  [("Enter", "Evaluate"), ("Esc", "Clear"), ("Up/Down", "History"), ("F1", "Help"),
    ("F2", "Analyze"), ("F3", "Problem"), ("Ctrl+Q", "Quit")]

/-- What to press. -/
def statusPane (area : Area) (picture : Picture) : Picture :=
  picture.write area .left
    [keyHints.flatMap fun (key, action) => [key.toList, (" " ++ action ++ " ").toList]]

/-- The least size of a terminal. -/
def leastWidth : Nat := 60

/-- The least height of a terminal. -/
def leastHeight : Nat := 20

/-- Whether a terminal is too small for the calculator. -/
def isTooSmall (width height : Nat) : Bool := width < leastWidth || height < leastHeight

/-- What is wrong with the size of a terminal. -/
def sizeMessage (width height : Nat) : String :=
  "Terminal too small! Min size: " ++ toString leastWidth ++ "x" ++ toString leastHeight
    ++ ". Current: " ++ toString width ++ "x" ++ toString height

/-- What to do about a small terminal. -/
def resizePane (area : Area) (picture : Picture) : Picture :=
  (picture.framed area .center " Resize Required ").flow area.inner true .center
    [.ofText (sizeMessage area.width area.height), .ofText "",
      .ofText "Please resize your terminal window"]

end Calculator.Screen
