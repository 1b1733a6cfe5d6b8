import Calculator.Keyboard
import Calculator.Text.Blank

/-!
# `Console.Command` — what a finished line asks for
-/

namespace Calculator

/-- What a line asks for. -/
inductive Command where
  | nothing
  | quit
  | clear
  | history
  | calculate (expression : String)
deriving Repr, DecidableEq

namespace Command

/-- The words that are commands. -/
def words : List (String × Command) :=
  [("quit", .quit), ("exit", .quit), ("q", .quit), ("clear", .clear), ("reset", .clear),
    ("history", .history)]

/-- The expression that a text spells on the display, each character as its `keypadGlyph`. -/
def expressionOf (text : List Char) : String := String.ofList (text.map keypadGlyph)

/-- The `Command` of a line. Blanks around it do not matter, nor do capitals in one of the `words`, and
whatever is none of these is an expression. -/
def ofLine (line : List Char) : Command :=
  let text := Text.trim line
  if text = [] then .nothing
  else
    match words.lookup (String.ofList (text.map Char.toLower)) with
    | some command => command
    | none => .calculate (expressionOf text)

/-- A line with something on it that is no command is an expression. -/
theorem ofLine_of_no_command {line : List Char} (hshown : Text.trim line ≠ [])
    (hword : words.lookup (String.ofList ((Text.trim line).map Char.toLower)) = none) :
    ofLine line = .calculate (expressionOf (Text.trim line)) := by
  unfold ofLine
  rw [if_neg hshown, hword]

end Command

end Calculator
