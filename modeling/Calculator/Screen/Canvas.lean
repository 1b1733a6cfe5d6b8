import Calculator.Text.Blank
import Calculator.Text.Cluster
import Calculator.Text.Width

/-!
# `Screen.Canvas` — a screen of cells

Every cell of a screen shows one symbol. A symbol that takes several columns stands in the first of its
cells and the others are blank. What lies beyond the edges is not drawn.

## Contents

* `Area` — a rectangle of cells
* `Symbol` — what a cell shows
* `Canvas`, `Canvas.put`, `Canvas.lines` — the cells
* `Canvas.writeSymbols`, `Canvas.writeSpans` — writing along a row
-/

namespace Calculator.Screen

/-- A rectangle of cells. -/
structure Area where
  left : Nat
  top : Nat
  width : Nat
  height : Nat
deriving Repr, DecidableEq

namespace Area

/-- The column behind the last one. -/
def right (area : Area) : Nat := area.left + area.width

/-- The row below the last one. -/
def bottom (area : Area) : Nat := area.top + area.height

/-- Whether there are no cells in it. -/
def isEmpty (area : Area) : Bool := area.width = 0 || area.height = 0

/-- What is left inside a border of one cell. -/
def inner (area : Area) : Area where
  left := min (area.left + 1) area.right
  top := min (area.top + 1) area.bottom
  width := area.width - 2
  height := area.height - 2

end Area

/-- A visible symbol and the number of its columns. -/
structure Symbol where
  text : List Char
  columns : Nat
deriving Repr, DecidableEq

namespace Symbol

/-- The symbol of a cluster of characters. -/
def ofCluster (cluster : List Char) : Symbol := ⟨cluster, Text.width cluster⟩

/-- Whether the symbol separates words: it is blank, and no space that keeps words together. -/
def isSpace (symbol : Symbol) : Bool :=
  symbol.text.all Text.isBlank && symbol.text ≠ [Char.ofNat 0xA0]

/-- The columns of several symbols. -/
def totalColumns : List Symbol → Nat
  | [] => 0
  | symbol :: rest => symbol.columns + totalColumns rest

end Symbol

/-- A line of text in its parts; symbols never reach from one part into the next. -/
abbrev Line := List (List Char)

/-- The symbols of a line. -/
def Line.symbols (line : Line) : List Symbol :=
  line.flatMap fun part => (Text.clusters part).map Symbol.ofCluster

/-- A line of one part. -/
def Line.ofText (text : String) : Line := [text.toList]

/-! ## Cells -/

/-- The cells of a screen, row by row. -/
structure Canvas where
  width : Nat
  height : Nat
  rows : List (List (List Char))
deriving Repr, DecidableEq

namespace Canvas

/-- What an empty cell shows. -/
def blankCell : List Char := [' ']

/-- A screen of empty cells. -/
def blank (width height : Nat) : Canvas :=
  ⟨width, height, List.replicate height (List.replicate width blankCell)⟩

/-- The whole screen. -/
def area (canvas : Canvas) : Area := ⟨0, 0, canvas.width, canvas.height⟩

/-- Puts a text into a cell. -/
def put (canvas : Canvas) (x y : Nat) (text : List Char) : Canvas :=
  { canvas with rows := canvas.rows.modify y fun row => row.set x text }

/-- Empties cells of a row. -/
def erase (canvas : Canvas) (x y : Nat) : (count : Nat) → Canvas
  | 0 => canvas
  | count + 1 => (canvas.put x y blankCell).erase (x + 1) y count

/-- The rows as texts. -/
def lines (canvas : Canvas) : List (List Char) := canvas.rows.map List.flatten

/-! ## Writing -/

/-- Writes symbols along a row from column `x` on, up to the first one that does not end before column
`stop`, and gives the column behind the last one written. Symbols without columns are passed over. -/
def writeSymbols (canvas : Canvas) (x y stop : Nat) : List Symbol → Canvas × Nat
  | [] => (canvas, x)
  | symbol :: rest =>
    if symbol.columns = 0 then writeSymbols canvas x y stop rest
    else if stop < x + symbol.columns then (canvas, x)
    else
      let canvas := (canvas.put x y symbol.text).erase (x + 1) y (symbol.columns - 1)
      writeSymbols canvas (x + symbol.columns) y stop rest

/-- Writes the parts of a line from column `x` on in `room` columns. Each part is cut on its own: what
follows a symbol that does not fit may still fit if it is in another part. -/
def writeSpans (canvas : Canvas) (x y room : Nat) : Line → Canvas
  | [] => canvas
  | part :: rest =>
    if room = 0 then canvas
    else
      let symbols := Line.symbols [part]
      let (canvas, next) := canvas.writeSymbols x y (min canvas.width (x + room)) symbols
      canvas.writeSpans next y (room - (next - x)) rest

end Canvas

end Calculator.Screen
