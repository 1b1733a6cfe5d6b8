import Calculator.Expression.Value
import Calculator.Number.Rounded

/-!
# `Expression.Outcome` — what the display shows for an expression

## Contents

* `resultNumeral` — the text of a result
* `Outcome`, `evaluate` — a result or the word that stands for every error
-/

namespace Calculator

/-- Places after the point that a result is rounded to. -/
def resultPlaces : Nat := 10

/-- Places after the point in the exponential form. -/
def exponentialPlaces : Nat := 6

/-- Magnitudes below this are shown with an exponent. -/
def leastPositional : Float := Decimal.toFloat false ⟨1, -6⟩

/-- Drops the zeros that end a text, and then the points that end it. -/
def dropTrailing (text : List Char) : List Char :=
  ((text.reverse.dropWhile fun c => c == '0').dropWhile fun c => c == '.').reverse

/-- The text of a result. A magnitude between zero and `10 ^ -6` is shown with an exponent and six
places; every other number is rounded to ten places, of which those that end in zeros are left out,
and zero has no sign. -/
def resultNumeral (x : Float) : List Char :=
  if x != 0 && x.abs < leastPositional then scientificNumeral exponentialPlaces x
  else
    let text := dropTrailing (fixedNumeral resultPlaces x)
    if text = ['-', '0'] then ['0'] else text

/-- What is shown in place of a result when there is none. -/
def errorWord : String := "Error"

/-- The outcome of `evaluate` as the display knows it: the kinds of errors are not told apart. -/
inductive Outcome where
  | number (text : String)
  | error
deriving Repr, DecidableEq

namespace Outcome

/-- What the display shows. -/
def display : Outcome → String
  | .number text => text
  | .error => errorWord

/-- Whether there is no result. -/
def isError : Outcome → Bool
  | .number _ => false
  | .error => true

/-- The text of the result, if there is one. -/
def value? : Outcome → Option String
  | .number text => some text
  | .error => none

end Outcome

/-- The `valueOf` a text without the free variable, for the display. -/
def evaluate (input : String) : Outcome :=
  match valueOf input with
  | .ok value => .number (String.ofList (resultNumeral value))
  | .error _ => .error

theorem evaluate_eq_number_iff {input text : String} :
    evaluate input = .number text ↔
      ∃ value, valueOf input = .ok value ∧ text = String.ofList (resultNumeral value) := by
  unfold evaluate
  cases valueOf input with
  | error e => simp
  | ok value => simp [eq_comm]

theorem evaluate_eq_error_iff {input : String} :
    evaluate input = .error ↔ ∃ e, valueOf input = .error e := by
  unfold evaluate
  cases valueOf input with
  | error e => simp
  | ok value => simp

end Calculator
