import Calculator.Expression.Vocabulary
import Calculator.Text.Blank

/-!
# `Expression.Highlight` — the parts of an expression on the screen

While an expression is typed it need not be one yet, so the screen tells its parts apart by their
characters alone.

## Contents

* `Role`, `HighlightSpan`
* `highlight` — the parts of a text
-/

namespace Calculator

/-- What a part of the text is shown as. -/
inductive Role where
  | function
  | operator
  | number
  | base
  | space
deriving Repr, DecidableEq

/-- A part of the text. -/
structure HighlightSpan where
  text : List Char
  role : Role
deriving Repr, DecidableEq

/-- Whether a character belongs to a number. -/
def isNumeric (c : Char) : Bool := c.isDigit || c == '.'

/-- What a run of letters is shown as: a name that is known (`isName`), in letters of either case, as a
`function`. -/
def wordRole (letters : List Char) : Role :=
  if isName (String.ofList (letters.map Char.toLower)) then .function else .base

/-- What a character that is neither letter nor part of a number is shown as. -/
def symbolRole : Char → Role
  | '+' | '-' | '*' | '/' | '^' | '×' | '÷' | '−' => .operator
  | 'π' => .function
  | ' ' => .space
  | _ => .base

/-- The parts of a text: runs of ASCII letters (`wordRole`), runs of digits and points, and single characters
(`symbolRole`). -/
def highlight : List Char → List HighlightSpan
  | [] => []
  | c :: rest =>
    if c.isAlpha then
      let letters := c :: rest.takeWhile Char.isAlpha
      ⟨letters, wordRole letters⟩ :: highlight (rest.dropWhile Char.isAlpha)
    else if isNumeric c then
      ⟨c :: rest.takeWhile isNumeric, .number⟩ :: highlight (rest.dropWhile isNumeric)
    else ⟨[c], symbolRole c⟩ :: highlight rest
termination_by text => text.length
decreasing_by
  all_goals simp only [List.length_cons]
  · have := Text.length_dropWhile_le Char.isAlpha rest
    omega
  · have := Text.length_dropWhile_le isNumeric rest
    omega
  · omega

end Calculator
