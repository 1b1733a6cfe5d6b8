import Calculator.Number.Shortest

/-!
# `Number.Rounded` — numerals with a fixed number of places

Both texts round the exact value of a number once, a half going to the even neighbour.

## Contents

* `fixedNumeral` — a given number of digits after the point
* `scientificNumeral` — one digit, a given number after the point, and an exponent
-/

namespace Calculator

/-- Digits padded on the left with zeros. -/
def padDigits (width n : Nat) : List Char :=
  let digits := Nat.toDigits 10 n
  List.replicate (width - digits.length) '0' ++ digits

/-- `n / 10 ^ places` with all its places. -/
def placed (places n : Nat) : List Char :=
  if places = 0 then Nat.toDigits 10 n
  else Nat.toDigits 10 (n / Nat.pow 10 places) ++ '.' :: padDigits places (n % Nat.pow 10 places)

/-- The number rounded to a multiple of `10 ^ -places`, with all its places. -/
def fixedNumeral (places : Nat) (x : Float) : List Char :=
  match Binary64.ofFloat x with
  | .notANumber => ['N', 'a', 'N']
  | .infinite negative => signed negative ['i', 'n', 'f']
  | .finite negative coefficient exponent =>
    signed negative (placed places ((Binary64.magnitude coefficient exponent).scale10 places).round)

/-- A positive fraction rounded to `places + 1` digits: the digits as one number and the exponent of
the first of them. Rounding up to the next power of ten moves the exponent instead of adding a
digit. -/
def leadingDigits (places : Nat) (r : Ratio) : Nat × Int :=
  let exponent := r.log10
  let rounded := (r.scale10 (places - exponent)).round
  if rounded = Nat.pow 10 (places + 1) then (Nat.pow 10 places, exponent + 1) else (rounded, exponent)

/-- The number rounded to `places + 1` digits, with the exponent of the first of them. -/
def scientificNumeral (places : Nat) (x : Float) : List Char :=
  match Binary64.ofFloat x with
  | .notANumber => ['N', 'a', 'N']
  | .infinite negative => signed negative ['i', 'n', 'f']
  | .finite negative coefficient exponent =>
    let (rounded, leading) :=
      if coefficient = 0 then (0, 0)
      else leadingDigits places (Binary64.magnitude coefficient exponent)
    signed negative (placed places rounded ++ 'e' :: Decimal.integer leading)

end Calculator
