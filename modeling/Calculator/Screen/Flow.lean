import Calculator.Screen.Canvas

/-!
# `Screen.Flow` — lines that break between words

A line that is too long for its area goes on in the next row. The break is made in the space between two
words, which then is not shown, or inside a word that is longer than a row. The space in front of the
first word of a row is kept or, in a trimmed text, dropped.

The symbols are taken one by one. Those whose row is settled are on the open row; behind it wait the
blanks that were seen last and the word that is not yet complete.

## Contents

* `Flow` — the rows so far and what waits
* `Flow.settle`, `Flow.breakRow`, `Flow.add` — the moves
* `Flow.take`, `Flow.finish` — one symbol, and the end of the line
* `flowed` — the rows of a line
-/

namespace Calculator.Screen

/-- The rows of a line while it is taken symbol by symbol. -/
structure Flow where
  rows : List (List Symbol)
  row : List Symbol
  blanks : List Symbol
  word : List Symbol
  inWord : Bool
deriving Repr, DecidableEq

namespace Flow

/-- Before the first symbol. -/
def empty : Flow := ⟨[], [], [], [], false⟩

/-- The columns of the open row. -/
def rowColumns (flow : Flow) : Nat := Symbol.totalColumns flow.row

/-- The columns of the blanks that wait. -/
def blankColumns (flow : Flow) : Nat := Symbol.totalColumns flow.blanks

/-- The columns of the word that waits. -/
def wordColumns (flow : Flow) : Nat := Symbol.totalColumns flow.word

/-- Whether the waiting word has to be put on the row before a symbol: the symbol ends the word, or
nothing stands on the row yet and what waits would outgrow it together with the symbol. -/
def mustSettle (room : Nat) (trim : Bool) (flow : Flow) (symbol : Symbol) : Bool :=
  (flow.inWord && symbol.isSpace)
    || (flow.row = [] &&
      if trim then
        room < flow.wordColumns + symbol.columns
          || room < flow.blankColumns + symbol.columns
      else room < flow.wordColumns + flow.blankColumns + symbol.columns)

/-- Puts the waiting word on the row, behind its blanks unless they would begin a trimmed row. -/
def settle (trim : Bool) (flow : Flow) : Flow :=
  let row := if flow.row ≠ [] || !trim then flow.row ++ flow.blanks else flow.row
  { flow with row := row ++ flow.word, blanks := [], word := [] }

/-- Whether the row has to be broken off before a symbol. -/
def mustBreak (room : Nat) (flow : Flow) (symbol : Symbol) : Bool :=
  room ≤ flow.rowColumns
    || (room ≤ flow.rowColumns + flow.blankColumns + flow.wordColumns
      && 0 < symbol.columns)

/-- Drops the blanks that fill the end of a row, and the one behind them at which it is broken. -/
def dropBlanks (room : Nat) : List Symbol → List Symbol
  | [] => []
  | blank :: rest => if room < blank.columns then rest else dropBlanks (room - blank.columns) rest

/-- Breaks the row off. -/
def breakRow (room : Nat) (flow : Flow) : Flow :=
  { flow with
    rows := flow.rows ++ [flow.row]
    row := []
    blanks := dropBlanks (room - flow.rowColumns) flow.blanks }

/-- Lets a symbol wait. -/
def add (flow : Flow) (symbol : Symbol) : Flow :=
  if symbol.isSpace then { flow with blanks := flow.blanks ++ [symbol], inWord := false }
  else { flow with word := flow.word ++ [symbol], inWord := true }

/-- Takes a symbol; one that is wider than a row is left out. A blank that comes where the row was just
broken off, with no other blank left, is dropped. -/
def take (room : Nat) (trim : Bool) (flow : Flow) (symbol : Symbol) : Flow :=
  if room < symbol.columns then flow
  else
    let flow := if flow.mustSettle room trim symbol then flow.settle trim else flow
    if flow.mustBreak room symbol then
      let flow := flow.breakRow room
      if symbol.isSpace && flow.blanks = [] then flow else flow.add symbol
    else flow.add symbol

/-- The rows when no symbol is left. A line that is blank to its end closes with an empty row. -/
def finish (trim : Bool) (flow : Flow) : List (List Symbol) :=
  let blankEnd := flow.row = [] ∧ flow.word = [] ∧ flow.blanks ≠ []
  let rows := if blankEnd then flow.rows ++ [[]] else flow.rows
  let row := if blankEnd then [] else (flow.settle trim).row
  let rows := if row = [] then rows else rows ++ [row]
  if rows = [] then [[]] else rows

end Flow

/-- The rows that a line takes in a number of columns. -/
def flowed (room : Nat) (trim : Bool) (symbols : List Symbol) : List (List Symbol) :=
  (symbols.foldl (Flow.take room trim) .empty).finish trim

end Calculator.Screen
