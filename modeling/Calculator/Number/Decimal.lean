import Calculator.Number.Binary64

/-!
# `Number.Decimal` — decimal numerals and how they are read

A numeral denotes exactly one decimal number; reading it as a `Float` rounds that number once, to the
nearest value. Two kinds of numeral are read: what stands in an expression or a setting
(`readNumeral?`), and natural numbers that must fit a number of bits (`readNatural?`).

## Contents

* `Decimal`, `Decimal.toRatio`, `Decimal.toFloat` — the number `coefficient · 10 ^ exponent`
* `Decimal.ofDigits` — the number written by digits around a point
* `readNumeral?` — sign, digits, point, exponent, and the words for infinity and not-a-number
* `readNatural?` — digits with an optional plus sign
-/

namespace Calculator

/-- The number `coefficient · 10 ^ exponent`. -/
structure Decimal where
  coefficient : Nat
  exponent : Int
deriving Repr, DecidableEq

namespace Decimal

/-- The exact value. -/
def toRatio (d : Decimal) : Ratio := (Ratio.ofNat d.coefficient).scale10 d.exponent

/-- One more than the exponent of the leading digit, for a coefficient that is not zero. -/
def size (d : Decimal) : Int := (Ratio.digitCount d.coefficient : Int) + d.exponent

/-- The number nearest to `± d`. From `10 ^ 310` on every decimal is infinite and below `10 ^ -330`
every one is zero, so that no power of ten larger than needed is ever computed. -/
def toFloat (negative : Bool) (d : Decimal) : Float :=
  if d.coefficient = 0 then Binary64.nearest negative (Ratio.ofNat 0)
  else if 310 < d.size then Binary64.infinity negative
  else if d.size < -330 then Binary64.nearest negative (Ratio.ofNat 0)
  else Binary64.nearest negative d.toRatio

/-- The number whose digits before and after the point are given, times `10 ^ exponent`. -/
def ofDigits (whole fraction : List Char) (exponent : Int) : Decimal :=
  ⟨Nat.ofDigitChars 10 (whole ++ fraction) 0, exponent - fraction.length⟩

end Decimal

/-! ## Reading -/

/-- The digits at the start of a text, and the rest. -/
def spanDigits (text : List Char) : List Char × List Char :=
  (text.takeWhile Char.isDigit, text.dropWhile Char.isDigit)

/-- Takes a sign from the start of a text: whether it is a minus, and the rest. -/
def takeSign : List Char → Bool × List Char
  | '-' :: rest => (true, rest)
  | '+' :: rest => (false, rest)
  | text => (false, text)

/-- The exponent that ends a numeral: nothing, or `e`, an optional sign and at least one digit. -/
def readExponent? : List Char → Option Int
  | [] => some 0
  | mark :: text =>
    if mark = 'e' ∨ mark = 'E' then
      let (negative, rest) := takeSign text
      let (digits, rest) := spanDigits rest
      if digits = [] ∨ rest ≠ [] then none
      else
        let value : Int := Nat.ofDigitChars 10 digits 0
        some (if negative then -value else value)
    else none

/-- Digits with at most one point among them, at least one digit, and an optional exponent. -/
def readDecimal? (text : List Char) : Option Decimal :=
  let (whole, rest) := spanDigits text
  let (fraction, rest) := match rest with
    | '.' :: rest => spanDigits rest
    | rest => ([], rest)
  if whole = [] ∧ fraction = [] then none
  else (readExponent? rest).map (Decimal.ofDigits whole fraction)

/-- A numeral as it stands in a setting: an optional sign, then a decimal or, in letters of either
case, `inf`, `infinity` or `nan`. -/
def readNumeral? (text : List Char) : Option Float :=
  let (negative, rest) := takeSign text
  let word := rest.map Char.toLower
  if word = ['i', 'n', 'f'] ∨ word = ['i', 'n', 'f', 'i', 'n', 'i', 't', 'y'] then
    some (Binary64.infinity negative)
  else if word = ['n', 'a', 'n'] then some Binary64.nan
  else (readDecimal? rest).map (Decimal.toFloat negative)

/-- A natural number of at most `bits` bits: an optional plus sign and at least one digit. -/
def readNatural? (bits : Nat) (text : List Char) : Option Nat :=
  let digits := match text with
    | '+' :: rest => rest
    | text => text
  if digits = [] ∨ !digits.all Char.isDigit then none
  else
    let value := Nat.ofDigitChars 10 digits 0
    if value < Nat.pow 2 bits then some value else none

end Calculator
