import Calculator.Number.Shortest

/-!
# `Json.Numeral` — numbers as they are written

A numeral keeps its digits until a number of some kind is wanted: an unsigned integer has to be written
as one and to fit its bits, while every numeral is a real number unless it is too great.

A real number is read the quick way. The digits are gathered in a word of sixty-four bits, of which
those that no longer fit are dropped, and the word is then multiplied or divided by a power of ten. Both
steps round, so the last bit of the result may differ from that of the nearest number.

## Contents

* `Numeral`, `spanNumeral?` — numerals and how they are spelled
* `Numeral.toNatural?`, `Numeral.toFloat?` — their values
* `Numeral.ofNat`, `Numeral.ofDecimal`, `Numeral.ofFloat?`, `Numeral.source` — how numbers are written
-/

namespace Calculator.Json

/-- A numeral by its digits. The exponent is `none` if it is not written. -/
structure Numeral where
  negative : Bool
  whole : List Char
  fraction : List Char
  exponent : Option Int
deriving Repr, DecidableEq

/-! ## Spelling -/

/-- The part after the point, with what follows it; without a point it is empty, and with one it is
not. -/
def spanFraction? : List Char → Option (List Char × List Char)
  | '.' :: rest =>
    let (digits, rest) := spanDigits rest
    if digits = [] then none else some (digits, rest)
  | rest => some ([], rest)

/-- The exponent, with what follows it: a mark, an optional sign and at least one digit. -/
def spanExponent? : List Char → Option (Option Int × List Char)
  | [] => some (none, [])
  | mark :: rest =>
    if mark = 'e' ∨ mark = 'E' then
      let (negative, rest) := takeSign rest
      let (digits, rest) := spanDigits rest
      if digits = [] then none
      else
        let value : Int := Nat.ofDigitChars 10 digits 0
        some (some (if negative then -value else value), rest)
    else some (none, mark :: rest)

/-- Takes a minus sign from the start of a text. -/
def takeMinus : List Char → Bool × List Char
  | '-' :: rest => (true, rest)
  | rest => (false, rest)

/-- Whether digits may stand before the point: there is one, and only zero starts with a zero. -/
def isWholePart : List Char → Bool
  | [] => false
  | ['0'] => true
  | first :: _ => first ≠ '0'

/-- The numeral at the start of a text and what follows it. -/
def spanNumeral? (text : List Char) : Option (Numeral × List Char) :=
  let (negative, rest) := takeMinus text
  let (whole, rest) := spanDigits rest
  if isWholePart whole then
    (spanFraction? rest).bind fun (fraction, rest) =>
      (spanExponent? rest).map fun (exponent, rest) => (⟨negative, whole, fraction, exponent⟩, rest)
  else none

namespace Numeral

/-! ## Values -/

/-- The unsigned integer of at most `bits` bits that a numeral without sign, point and exponent is. -/
def toNatural? (bits : Nat) (numeral : Numeral) : Option Nat :=
  let value := Nat.ofDigitChars 10 numeral.whole 0
  if !numeral.negative ∧ numeral.fraction = [] ∧ numeral.exponent = none ∧ value < Nat.pow 2 bits then
    some value
  else none

/-- Appends digits to a word of sixty-four bits until one does not fit: the word, and how many digits
are left. -/
def gather (word : Nat) : List Char → Nat × Nat
  | [] => (word, 0)
  | c :: rest =>
    let longer := word * 10 + (c.toNat - '0'.toNat)
    if longer < Nat.pow 2 64 then gather longer rest else (word, rest.length + 1)

/-- The greatest power of ten that is a finite number. -/
def greatestPower : Nat := 308

/-- The number nearest to a power of ten. -/
def powerOfTen (k : Nat) : Float := Decimal.toFloat false ⟨1, k⟩

/-- Divides by `10 ^ k`, in several steps if that power is no finite number. -/
def divideByPower (x : Float) (k : Nat) : Float :=
  if k ≤ greatestPower then x / powerOfTen k
  else if x == 0 then x
  else divideByPower (x / powerOfTen greatestPower) (k - greatestPower)
termination_by k
decreasing_by simp only [greatestPower] at *; omega

/-- The word times a power of ten, unless the product is infinite. -/
def scaleWord? (word : Nat) : Int → Option Float
  | .negSucc k => some (divideByPower (Binary64.ofNat word) (k + 1))
  | .ofNat k =>
    if word = 0 then some 0
    else if greatestPower < k then none
    else
      let product := Binary64.ofNat word * powerOfTen k
      if product.isInf then none else some product

/-- The real number, unless it is too great. -/
def toFloat? (numeral : Numeral) : Option Float :=
  let (word, wholeLeft) := gather 0 numeral.whole
  let (word, fractionLeft) := gather word numeral.fraction
  let exponent := (wholeLeft : Int) - (numeral.fraction.length - fractionLeft : Nat)
    + numeral.exponent.getD 0
  (scaleWord? word exponent).map fun x => if numeral.negative then -x else x

/-! ## Writing -/

/-- An unsigned integer. -/
def ofNat (n : Nat) : Numeral := ⟨false, Nat.toDigits 10 n, [], none⟩

/-- The numeral of a decimal. Between `10 ^ -5` and `10 ^ 16` it is positional, with a fraction even if
that is zero; beyond them one digit stands before the point. -/
def ofDecimal (negative : Bool) (d : Decimal) : Numeral :=
  let point := (d.digits.length : Int) + d.exponent
  if point ≤ -5 ∨ 16 < point then ⟨negative, d.digits.take 1, d.digits.drop 1, some (point - 1)⟩
  else if point ≤ 0 then ⟨negative, ['0'], List.replicate (-point).toNat '0' ++ d.digits, none⟩
  else if 0 ≤ d.exponent then
    ⟨negative, d.digits ++ List.replicate d.exponent.toNat '0', ['0'], none⟩
  else ⟨negative, d.digits.take point.toNat, d.digits.drop point.toNat, none⟩

/-- A real number by its shortest decimal; infinities and what is not a number have no numeral. -/
def ofFloat? (x : Float) : Option Numeral :=
  match Binary64.ofFloat x with
  | .finite negative coefficient exponent =>
    some <|
      if coefficient = 0 then ⟨negative, ['0'], ['0'], none⟩
      else ofDecimal negative (Decimal.shortest x.abs coefficient exponent)
  | _ => none

/-- How a numeral is written. -/
def source (numeral : Numeral) : List Char :=
  let fraction := if numeral.fraction = [] then [] else '.' :: numeral.fraction
  let exponent := match numeral.exponent with
    | none => []
    | some exponent => 'e' :: Decimal.integer exponent
  signed numeral.negative (numeral.whole ++ fraction ++ exponent)

end Numeral

end Calculator.Json
