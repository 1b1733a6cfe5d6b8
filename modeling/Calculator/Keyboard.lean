/-!
# `Keyboard` — keys

## Contents

* `KeyCode`, `Key` — what is pressed
* `keypadGlyph` — how a typed character appears in an expression
-/

namespace Calculator

/-- A key by itself. -/
inductive KeyCode where
  | character (c : Char)
  | function (number : Nat)
  | enter
  | escape
  | backspace
  | delete
  | insert
  | tab
  | up
  | down
  | left
  | right
  | home
  | finish
  | pageUp
  | pageDown
deriving Repr, DecidableEq

/-- A key with the modifiers that are held down. Shift has already changed the character and is not
told apart. -/
structure Key where
  code : KeyCode
  control : Bool
  alt : Bool
deriving Repr, DecidableEq

namespace Key

/-- A key without modifiers. -/
def plain (code : KeyCode) : Key := ⟨code, false, false⟩

/-- The key that types a character. -/
def typing (c : Char) : Key := plain (.character c)

end Key

/-- The character that a typed one appears as: the signs of a keypad stand for times and division. -/
def keypadGlyph : Char → Char
  | '*' => '×'
  | '/' => '÷'
  | c => c

end Calculator
