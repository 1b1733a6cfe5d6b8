import Calculator.Number.Decimal

/-!
# `Number.Shortest` — the fewest digits that read back

Of the decimals with `n` digits only the two neighbours of a number can be nearest to it, so the
shortest numeral of a number is found by trying its neighbours on the grids of one, two, … seventeen
digits: the first grid on which one of them reads back as the number wins. Of two such neighbours the
nearer is taken, and the upper one if both are equally near.

Two texts are made of these digits. The plain text is always positional and leaves a whole number
without a point (`4`, `0.5`). The literal text shows at a glance that it is no integer (`4.0`) and
turns to an exponent from `10 ^ 16` on and below `10 ^ -4` (`1e16`, `1.5e-5`).

## Contents

* `Decimal.shortest` — the digits
* `Decimal.positional`, `Decimal.exponential` — digits as text
* `plainNumeral`, `literalNumeral` — the two texts of a number
-/

namespace Calculator

namespace Decimal

/-! ## Digits -/

/-- Whether the decimal reads back as the positive number `x`. -/
def readsBack (x : Float) (d : Decimal) : Bool := (d.toFloat false).toBits == x.toBits

/-- The neighbours of `r` among the multiples of `10 ^ exponent`, the preferred one first: the nearer,
or the upper one if both are equally near. -/
def neighbours (r : Ratio) (exponent : Int) : List Decimal :=
  let scaled := r.scale10 (-exponent)
  let below : Decimal := ⟨scaled.floor, exponent⟩
  let above : Decimal := ⟨scaled.floor + 1, exponent⟩
  if scaled.twiceRest < scaled.den then [below, above] else [above, below]

/-- Drops the zero that a neighbour has when it is itself a power of ten. -/
def dropZero (d : Decimal) : Decimal :=
  if d.coefficient = 10 then ⟨1, d.exponent + 1⟩ else d

/-- All the digits of `coefficient · 2 ^ exponent`. -/
def exact (coefficient : Nat) : Int → Decimal
  | .ofNat k => ⟨coefficient * Nat.pow 2 k, 0⟩
  | .negSucc k => ⟨coefficient * Nat.pow 5 (k + 1), .negSucc k⟩

/-- The shortest decimal that reads back as `x = coefficient · 2 ^ exponent`, for `x > 0`. -/
def shortest (x : Float) (coefficient : Nat) (exponent : Int) : Decimal :=
  let r := Binary64.magnitude coefficient exponent
  let found := (List.range 17).findSome? fun (n : Nat) =>
    (neighbours r (r.log10 - (n : Int))).find? (readsBack x)
  dropZero (found.getD (exact coefficient exponent))

/-! ## Text -/

/-- The digits of the coefficient. -/
def digits (d : Decimal) : List Char := Nat.toDigits 10 d.coefficient

/-- The digits with a point where it belongs; `whole` follows a number that needs no point. -/
def positional (d : Decimal) (whole : List Char) : List Char :=
  let point := (d.digits.length : Int) + d.exponent
  if point ≤ 0 then '0' :: '.' :: (List.replicate (-point).toNat '0' ++ d.digits)
  else if 0 ≤ d.exponent then d.digits ++ List.replicate d.exponent.toNat '0' ++ whole
  else d.digits.take point.toNat ++ '.' :: d.digits.drop point.toNat

/-- An integer with its minus sign, if it has one. -/
def integer : Int → List Char
  | .ofNat n => Nat.toDigits 10 n
  | .negSucc n => '-' :: Nat.toDigits 10 (n + 1)

/-- One digit, a point if more digits follow, and the exponent of the first digit. -/
def exponential (d : Decimal) : List Char :=
  let mantissa := match d.digits with
    | first :: second :: rest => first :: '.' :: second :: rest
    | digits => digits
  mantissa ++ 'e' :: integer (d.exponent + d.digits.length - 1)

end Decimal

/-! ## The texts of a number -/

/-- Writes a minus sign in front of the text of a negative number. -/
def signed (negative : Bool) (text : List Char) : List Char :=
  if negative then '-' :: text else text

/-- The positional text with the fewest digits that read back; a whole number has no point. -/
def plainNumeral (x : Float) : List Char :=
  match Binary64.ofFloat x with
  | .notANumber => ['N', 'a', 'N']
  | .infinite negative => signed negative ['i', 'n', 'f']
  | .finite negative coefficient exponent =>
    signed negative <|
      if coefficient = 0 then ['0']
      else (Decimal.shortest x.abs coefficient exponent).positional []

/-- The text with the fewest digits that read back, written so that it cannot be taken for an
integer: `4.0`, `0.5`, `1e16`, `1.5e-5`. -/
def literalNumeral (x : Float) : List Char :=
  match Binary64.ofFloat x with
  | .notANumber => ['N', 'a', 'N']
  | .infinite negative => signed negative ['i', 'n', 'f']
  | .finite negative coefficient exponent =>
    signed negative <|
      if coefficient = 0 then ['0', '.', '0']
      else
        let d := Decimal.shortest x.abs coefficient exponent
        let leading := (Binary64.magnitude coefficient exponent).log10
        if -4 ≤ leading ∧ leading < 16 then d.positional ['.', '0'] else d.exponential

end Calculator
