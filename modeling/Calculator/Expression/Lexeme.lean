import Calculator.Number.Decimal
import Calculator.Text.Blank

/-!
# `Expression.Lexeme` — the text of an expression, cut into pieces

A text falls into numerals, words and single symbols, with blanks between them that belong to none.
Cutting never fails: a character that no expression may hold is a symbol like any other, and a lone
point is a numeral; both are refused only when the pieces are read as tokens.

## Contents

* `Lexeme`
* `spanNumeral` — a numeral at the start of a text: digits with at most one point among them
* `Lexeme.scan` — the pieces of a text
-/

namespace Calculator

/-- A piece of the text of an expression. -/
inductive Lexeme where
  | numeral (text : List Char)
  | word (letters : List Char)
  | symbol (character : Char)
deriving Repr, DecidableEq

/-- The digits at the start of a text with at most one point among them, and the rest. -/
def spanNumeral (text : List Char) : List Char × List Char :=
  match spanDigits text with
  | (whole, '.' :: rest) => (whole ++ '.' :: (spanDigits rest).1, (spanDigits rest).2)
  | (whole, rest) => (whole, rest)

theorem length_spanDigits_le (text : List Char) : (spanDigits text).2.length ≤ text.length :=
  Text.length_dropWhile_le _ _

theorem length_spanNumeral_le (text : List Char) : (spanNumeral text).2.length ≤ text.length := by
  have h := length_spanDigits_le text
  unfold spanNumeral
  split
  · rename_i whole rest heq
    have hrest := length_spanDigits_le rest
    rw [heq] at h
    simp only [List.length_cons] at h ⊢
    omega
  · rename_i whole rest _ heq
    rw [heq] at h
    exact h

namespace Lexeme

/-- Cuts a text into its pieces: a `numeral` where a digit or a point stands, a `word` where an ASCII letter
stands, each as long as it can be; any other character that is not blank is a `symbol`. -/
def scan : List Char → List Lexeme
  | [] => []
  | c :: rest =>
    if Text.isBlank c then scan rest
    else if c.isDigit then
      .numeral (c :: (spanNumeral rest).1) :: scan (spanNumeral rest).2
    else if c = '.' then
      .numeral (c :: (spanDigits rest).1) :: scan (spanDigits rest).2
    else if c.isAlpha then
      .word (c :: rest.takeWhile Char.isAlpha) :: scan (rest.dropWhile Char.isAlpha)
    else .symbol c :: scan rest
termination_by text => text.length
decreasing_by
  all_goals simp only [List.length_cons]
  · omega
  · have := length_spanNumeral_le rest
    omega
  · have := length_spanDigits_le rest
    omega
  · have := Text.length_dropWhile_le Char.isAlpha rest
    omega
  · omega

end Lexeme

end Calculator
