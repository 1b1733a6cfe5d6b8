/-!
# `Json.Quoted` — strings in quotes

A string may be written with any character as its sixteen-bit units, so it can hold half of a pair
that stands for no character. Such a string is well formed, but it has no text; only the reader of a
text minds.

## Contents

* `Piece` — a character or a unit
* `takePiece?`, `spanPieces?` — the pieces up to the closing quote
* `textOf?` — the text that pieces stand for
* `escapeMark?`, `Piece.ofChar`, `Piece.source` — pieces of a text and how they are written
-/

namespace Calculator.Json

/-- A piece of a string: a character, written as itself or by a short escape, or a sixteen-bit unit. -/
inductive Piece where
  | character (c : Char)
  | unit (code : Nat)
deriving Repr, DecidableEq

/-! ## Reading -/

/-- The value of a hexadecimal digit. -/
def hexDigit? (c : Char) : Option Nat :=
  if '0' ≤ c ∧ c ≤ '9' then some (c.toNat - '0'.toNat)
  else if 'a' ≤ c ∧ c ≤ 'f' then some (c.toNat - 'a'.toNat + 10)
  else if 'A' ≤ c ∧ c ≤ 'F' then some (c.toNat - 'A'.toNat + 10)
  else none

/-- The value of hexadecimal digits. -/
def hexValue? (digits : List Char) : Option Nat :=
  digits.foldlM (fun value c => (hexDigit? c).map fun digit => value * 16 + digit) 0

/-- The character that a short escape stands for. -/
def shortEscape? : Char → Option Char
  | '"' => some '"'
  | '\\' => some '\\'
  | '/' => some '/'
  | 'b' => some '\x08'
  | 'f' => some '\x0c'
  | 'n' => some '\n'
  | 'r' => some '\r'
  | 't' => some '\t'
  | _ => none

/-- Whether a character may only be written as an escape. -/
def isRawControl (c : Char) : Bool := c.toNat < 0x20

/-- The piece at the start of a text and the number of characters that it is written with. -/
def takePiece? : List Char → Option (Piece × Nat)
  | '\\' :: 'u' :: a :: b :: c :: d :: _ => (hexValue? [a, b, c, d]).map fun code => (.unit code, 6)
  | '\\' :: c :: _ => (shortEscape? c).map fun c => (.character c, 2)
  | c :: _ => if c = '\\' ∨ isRawControl c then none else some (.character c, 1)
  | [] => none

/-- The pieces up to the closing quote and what follows the quote; `steps` bounds their number. -/
def spanPieces? : (steps : Nat) → List Char → Option (List Piece × List Char)
  | 0, _ => none
  | steps + 1, text =>
    if text.head? = some '"' then some ([], text.tail)
    else
      match takePiece? text with
      | none => none
      | some (piece, taken) =>
        (spanPieces? steps (text.drop taken)).map fun (pieces, rest) => (piece :: pieces, rest)

/-- Whether a unit is the first of a pair. -/
def isHighHalf (code : Nat) : Bool := 0xD800 ≤ code && code < 0xDC00

/-- Whether a unit is the second of a pair. -/
def isLowHalf (code : Nat) : Bool := 0xDC00 ≤ code && code < 0xE000

/-- The text that pieces stand for, unless half of a pair stands alone among them. -/
def textOf? : List Piece → Option (List Char)
  | [] => some []
  | .character c :: rest => (textOf? rest).map (c :: ·)
  | .unit high :: .unit low :: rest =>
    if isHighHalf high then
      if isLowHalf low then
        (textOf? rest).map (Char.ofNat (0x10000 + (high - 0xD800) * 0x400 + (low - 0xDC00)) :: ·)
      else none
    else if isLowHalf high then none
    else (textOf? (.unit low :: rest)).map (Char.ofNat high :: ·)
  | .unit code :: rest =>
    if isHighHalf code || isLowHalf code then none else (textOf? rest).map (Char.ofNat code :: ·)

/-! ## Writing -/

/-- The characters that are written as a short escape, each with the mark behind the backslash. -/
def shortEscapes : List (Char × Char) :=
  [('"', '"'), ('\\', '\\'), ('\x08', 'b'), ('\x0c', 'f'), ('\n', 'n'), ('\r', 'r'), ('\t', 't')]

/-- The mark of the short escape that a character is written as. -/
def escapeMark? (c : Char) : Option Char := shortEscapes.lookup c

/-- The piece that a character is written as: a control without a short escape is a unit. -/
def Piece.ofChar (c : Char) : Piece :=
  if isRawControl c ∧ escapeMark? c = none then .unit c.toNat else .character c

/-- The digits of a unit, four of them. -/
def unitDigits (code : Nat) : List Char :=
  [code / 0x1000, code / 0x100, code / 0x10, code].map fun digit => Nat.digitChar (digit % 0x10)

/-- How a piece is written. -/
def Piece.source : Piece → List Char
  | .character c =>
    match escapeMark? c with
    | some mark => ['\\', mark]
    | none => [c]
  | .unit code => '\\' :: 'u' :: unitDigits code

end Calculator.Json
