import Calculator.Screen.Border
import Calculator.Screen.Flow

/-!
# `Screen.Paragraph` — text in an area

The lines of a text are cut at the edge of their area or broken into rows that fit.

## Contents

* `LineFit` — what happens to a line that is too long
* `Canvas.drawRows` — rows of symbols
* `Canvas.paragraph` — lines of text
-/

namespace Calculator.Screen

/-- What happens to a line that is too long. -/
inductive LineFit where
  | cut
  | flow (trim : Bool)
deriving Repr, DecidableEq

/-- The symbols that fit a number of columns, up to the first one that does not; one that would not fit
any row is left out. -/
def fitting (room width : Nat) : List Symbol → List Symbol
  | [] => []
  | symbol :: rest =>
    if width < symbol.columns then fitting room width rest
    else if room < symbol.columns then []
    else symbol :: fitting (room - symbol.columns) width rest

/-- The rows of a line; line feeds are not shown. -/
def rowsOf (fit : LineFit) (width : Nat) (line : Line) : List (List Symbol) :=
  let symbols := line.symbols.filter fun symbol => symbol.text ≠ ['\n']
  match fit with
  | .cut => [fitting width width symbols]
  | .flow trim => flowed width trim symbols

/-- The column at which a row begins. -/
def rowOffset (alignment : Alignment) (width rowWidth : Nat) : Nat :=
  match alignment with
  | .left => 0
  | .center => width / 2 - rowWidth / 2
  | .right => width - rowWidth

namespace Canvas

/-- Puts symbols side by side. -/
def putSymbols (canvas : Canvas) (x y : Nat) : List Symbol → Canvas
  | [] => canvas
  | symbol :: rest =>
    if symbol.columns = 0 then putSymbols canvas x y rest
    else putSymbols (canvas.put x y symbol.text) (x + symbol.columns) y rest

/-- Draws rows one below the other from row `y` on. -/
def drawRows (canvas : Canvas) (area : Area) (alignment : Alignment) (y : Nat) :
    List (List Symbol) → Canvas
  | [] => canvas
  | row :: rest =>
    let offset := rowOffset alignment area.width (Symbol.totalColumns row)
    drawRows (canvas.putSymbols (area.left + offset) y row) area alignment (y + 1) rest

/-- Draws the lines of a text in an area, without the first `scroll` rows that they take. -/
def paragraph (canvas : Canvas) (area : Area) (fit : LineFit) (alignment : Alignment)
    (scroll : Nat) (lines : List Line) : Canvas :=
  if area.isEmpty then canvas
  else
    let rows := lines.flatMap (rowsOf fit area.width)
    canvas.drawRows area alignment area.top ((rows.drop scroll).take area.height)

end Canvas

end Calculator.Screen
