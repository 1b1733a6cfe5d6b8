/-!
# `Number.Ratio` — exact non-negative fractions

The texts of numbers are decided by exact comparisons, so every magnitude is first written as a
fraction of two natural numbers. Nothing here rounds except `Ratio.round`, and nothing reduces a
fraction to lowest terms: two fractions may denote the same number.

## Contents

* `Ratio`, `Ratio.ofNat`, `Ratio.scale` — fractions and multiplication by a power of a base
* `Ratio.floor`, `Ratio.round` — the integers below and nearest to a fraction
* `Ratio.log2`, `Ratio.log10` — the exponent of the leading binary or decimal digit
-/

namespace Calculator

/-- The fraction `num / den`. -/
structure Ratio where
  num : Nat
  den : Nat
  den_pos : 0 < den
deriving Repr

namespace Ratio

/-- A natural number as a fraction. -/
def ofNat (n : Nat) : Ratio := ⟨n, 1, by decide⟩

/-- `r · base ^ k`, for a power of either sign. -/
def scale (r : Ratio) (base : Nat) (base_pos : 0 < base) : Int → Ratio
  | .ofNat k => ⟨r.num * Nat.pow base k, r.den, r.den_pos⟩
  | .negSucc k => ⟨r.num, r.den * Nat.pow base (k + 1), Nat.mul_pos r.den_pos (Nat.pow_pos base_pos)⟩

/-- `r · 2 ^ k`. -/
def scale2 (r : Ratio) (k : Int) : Ratio := r.scale 2 (by decide) k

/-- `r · 10 ^ k`. -/
def scale10 (r : Ratio) (k : Int) : Ratio := r.scale 10 (by decide) k

/-- The greatest natural number not above `r`. -/
def floor (r : Ratio) : Nat := r.num / r.den

/-- Twice the part of `r` above its floor, measured in units of `1 / den`. -/
def twiceRest (r : Ratio) : Nat := 2 * (r.num % r.den)

/-- The nearest natural number; a half goes to the even neighbour. -/
def round (r : Ratio) : Nat :=
  if r.twiceRest < r.den then r.floor
  else if r.den < r.twiceRest then r.floor + 1
  else r.floor + r.floor % 2

/-- The exponent `k` with `2 ^ k ≤ r < 2 ^ (k + 1)`, for `r ≠ 0`. -/
def log2 (r : Ratio) : Int :=
  let k : Int := (r.num.log2 : Int) - (r.den.log2 : Int)
  let scaled := r.scale2 (-k)
  if scaled.den ≤ scaled.num then k else k - 1

/-- How many decimal digits `n` has; zero has none. -/
def digitCount (n : Nat) : Nat :=
  if n = 0 then 0 else (Nat.toDigits 10 n).length

/-- The exponent `k` with `10 ^ k ≤ r < 10 ^ (k + 1)`, for `r ≠ 0`. -/
def log10 (r : Ratio) : Int :=
  if r.den ≤ r.num then (digitCount r.floor : Int) - 1
  else -(digitCount ((r.den - 1) / r.num) : Int)

theorem twiceRest_lt (r : Ratio) : r.twiceRest < 2 * r.den := by
  have := Nat.mod_lt r.num r.den_pos
  simp only [twiceRest]
  omega

end Ratio

end Calculator
