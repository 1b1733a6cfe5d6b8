import Calculator.Number.Ratio

/-!
# `Number.Binary64` — what the 64 bits of a number stand for

A finite number is a sign, a coefficient and a power of two. `ofFloat` reads that view off the bits,
and `nearest` goes the other way: it gives the number nearest to an exact fraction, a half going to
the even coefficient. All decimal texts are defined through these two functions.

## Contents

* `Binary64`, `Binary64.ofFloat` — the view
* `Binary64.nearest`, `Binary64.ofNat` — correctly rounded numbers
* `Binary64.floor`, `Binary64.ceiling`, `Binary64.round` — the integers next to a number
* `Binary64.lesser`, `Binary64.greater` — extremes that pass over a value that is not a number
-/

namespace Calculator

/-- A number as its sign, coefficient and power of two: `± coefficient · 2 ^ exponent`. -/
inductive Binary64 where
  | notANumber
  | infinite (negative : Bool)
  | finite (negative : Bool) (coefficient : Nat) (exponent : Int)
deriving Repr, DecidableEq

namespace Binary64

/-- The exponent of the least positive number. -/
def leastExponent : Int := -1074

/-- The first pattern above those of the finite numbers: it stands for infinity. -/
def infinityBits : Nat := 2047 * Nat.pow 2 52

/-- Reads the sign, the eleven bits of the exponent and the fifty-two of the coefficient. -/
def ofFloat (x : Float) : Binary64 :=
  let bits := x.toBits.toNat
  let negative := decide (Nat.pow 2 63 ≤ bits)
  let field := bits / Nat.pow 2 52 % Nat.pow 2 11
  let fraction := bits % Nat.pow 2 52
  if field = 2047 then
    if fraction = 0 then .infinite negative else .notANumber
  else if field = 0 then .finite negative fraction leastExponent
  else .finite negative (Nat.pow 2 52 + fraction) (leastExponent + (field - 1 : Nat))

/-- The exact value of `coefficient · 2 ^ exponent`. -/
def magnitude (coefficient : Nat) (exponent : Int) : Ratio :=
  (Ratio.ofNat coefficient).scale2 exponent

/-- The pattern of the number nearest to `r`, without its sign. The coefficient of a normal number
has its leading bit set; adding it whole to the exponent's field carries that bit into the field, so
one sum serves subnormal and normal numbers and a coefficient that rounds up to the next power. -/
def nearestBits (r : Ratio) : Nat :=
  if r.num = 0 then 0
  else
    let exponent := max (r.log2 - 52) leastExponent
    let coefficient := (r.scale2 (-exponent)).round
    min ((exponent - leastExponent).toNat * Nat.pow 2 52 + coefficient) infinityBits

/-- The number nearest to `± r`; a half goes to the even coefficient, and what lies beyond the
greatest finite number by half a unit or more becomes infinite. -/
def nearest (negative : Bool) (r : Ratio) : Float :=
  Float.ofBits (UInt64.ofNat ((if negative then Nat.pow 2 63 else 0) + nearestBits r))

/-- The number nearest to a natural number. -/
def ofNat (n : Nat) : Float := nearest false (Ratio.ofNat n)

/-- The infinite number of a sign. -/
def infinity (negative : Bool) : Float :=
  Float.ofBits (UInt64.ofNat ((if negative then Nat.pow 2 63 else 0) + infinityBits))

/-- The value that is not a number. -/
def nan : Float := Float.ofBits (UInt64.ofNat (infinityBits + Nat.pow 2 51))

/-! ## Integers next to a number -/

/-- Replaces the magnitude of a number that may have a fraction by a natural number chosen from its
whole part and from twice its rest, measured against the unit. The sign stays, also on zero. -/
def toWhole (choose : (negative : Bool) → (whole twiceRest unit : Nat) → Nat) (x : Float) : Float :=
  match ofFloat x with
  | .finite negative coefficient (.negSucc k) =>
    let r := magnitude coefficient (.negSucc k)
    nearest negative (Ratio.ofNat (choose negative r.floor r.twiceRest r.den))
  | _ => x

/-- The greatest integer not above `x`. -/
def floor : Float → Float :=
  toWhole fun negative whole rest _ => if negative && 0 < rest then whole + 1 else whole

/-- The least integer not below `x`. -/
def ceiling : Float → Float :=
  toWhole fun negative whole rest _ => if !negative && 0 < rest then whole + 1 else whole

/-- The integer nearest to `x`; a half goes away from zero. -/
def round : Float → Float :=
  toWhole fun _ whole rest unit => if unit ≤ rest then whole + 1 else whole

/-! ## Extremes -/

/-- The lesser of two numbers, the second one if they are equal as zeros of either sign are; a value
that is not a number gives way to the other. -/
def lesser (x y : Float) : Float :=
  if x.isNaN then y else if y.isNaN then x else if x < y then x else y

/-- The greater of two numbers, the second one if they are equal; a value that is not a number gives
way to the other. -/
def greater (x y : Float) : Float :=
  if x.isNaN then y else if y.isNaN then x else if y < x then x else y

end Binary64

end Calculator
