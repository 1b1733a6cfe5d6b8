import Calculator.Text.Blank
import Calculator.Text.Width

/-!
# `Text.Wrap` — breaking a text into lines

Words are put on a line for as long as they fit, with one space between them. A word wider than a whole
line is cut into pieces on lines of their own. Words and single characters are measured each in their own
way. On a terminal the pieces of a word are measured as among East Asian text, so that they fit whatever
the terminal makes of ambiguous characters.

## Contents

* `Gauge`, `Gauge.terminal` — how words and characters are measured
* `spanFitting`, `pieces` — cutting a word
* `wrapBy`, `wrap` — the lines of a text
-/

namespace Calculator.Text

/-- The columns that a word takes, and those of a character where a word is cut, if they can be told. -/
structure Gauge where
  word : List Char → Nat
  character? : Char → Option Nat

namespace Gauge

/-- A terminal's columns, for characters as among East Asian text. -/
def terminal : Gauge := ⟨width, columnsAmongWide?⟩

/-- The columns that a character is given when a word is cut; one that cannot be measured counts as
one. -/
def cutColumns (gauge : Gauge) (c : Char) : Nat := (gauge.character? c).getD 1

end Gauge

/-- The longest start of a word that fits a number of columns, and the rest. -/
def spanFitting (gauge : Gauge) (room : Nat) : List Char → List Char × List Char
  | [] => ([], [])
  | c :: rest =>
    if room < gauge.cutColumns c then ([], c :: rest)
    else
      let (fitting, rest) := spanFitting gauge (room - gauge.cutColumns c) rest
      (c :: fitting, rest)

theorem length_spanFitting_le (gauge : Gauge) (room : Nat) (word : List Char) :
    (spanFitting gauge room word).2.length ≤ word.length := by
  induction word generalizing room with
  | nil => simp [spanFitting]
  | cons c rest ih =>
    simp only [spanFitting]
    split
    · simp
    · have := ih (room - gauge.cutColumns c)
      simp only [List.length_cons]
      omega

/-- Cuts a word into pieces that fit (`spanFitting`); a character that fits no line is a piece of its own. -/
def pieces (gauge : Gauge) (width : Nat) : List Char → List (List Char)
  | [] => []
  | c :: rest =>
    if width < gauge.cutColumns c then [c] :: pieces gauge width rest
    else
      (c :: (spanFitting gauge (width - gauge.cutColumns c) rest).1) ::
        pieces gauge width (spanFitting gauge (width - gauge.cutColumns c) rest).2
termination_by word => word.length
decreasing_by
  all_goals simp only [List.length_cons]
  · omega
  · have := length_spanFitting_le gauge (width - gauge.cutColumns c) rest
    omega

/-- A line that is being filled, with its width so far. -/
structure OpenLine where
  text : List Char
  columns : Nat
deriving Repr, DecidableEq

namespace OpenLine

/-- A line without words. -/
def empty : OpenLine := ⟨[], 0⟩

/-- The line, closed, if it has words. -/
def closed (line : OpenLine) : List (List Char) := if line.text = [] then [] else [line.text]

/-- The line with a word added, behind a space if it has words already. -/
def add (gauge : Gauge) (line : OpenLine) (word : List Char) : OpenLine :=
  if line.text = [] then ⟨word, line.columns + gauge.word word⟩
  else ⟨line.text ++ ' ' :: word, line.columns + 1 + gauge.word word⟩

end OpenLine

/-- The lines that an `OpenLine` and the words behind it come to. -/
def wrapWords (gauge : Gauge) (width : Nat) (line : OpenLine) : List (List Char) → List (List Char)
  | [] => line.closed
  | word :: rest =>
    if width < gauge.word word then
      line.closed ++ pieces gauge width word ++ wrapWords gauge width .empty rest
    else if width < line.columns + gauge.word word + 1 ∧ line.text ≠ [] then
      line.closed ++ wrapWords gauge width (OpenLine.empty.add gauge word) rest
    else wrapWords gauge width (line.add gauge word) rest

/-- The lines of a text within a number of columns, by a `gauge`; no columns leave one empty line. -/
def wrapBy (gauge : Gauge) (width : Nat) (text : List Char) : List (List Char) :=
  if width = 0 then [[]] else wrapWords gauge width .empty (words text)

/-- The lines of a text on a terminal. -/
def wrap (width : Nat) (text : List Char) : List (List Char) := wrapBy .terminal width text

end Calculator.Text
