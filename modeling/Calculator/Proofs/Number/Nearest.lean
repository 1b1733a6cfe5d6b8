import Calculator.Proofs.Number.ReadBack

/-!
# `Proofs.Number.Nearest` — the nearest number is the nearest

A fraction is rounded to a natural number, and a number is found for a fraction by rounding once on the
grid that the fraction's leading bit selects. Neither definition speaks of distances. Here it is shown
that no natural number and no number is nearer than the one that is found. A number off the grid is no
exception: the grid is coarser than the numbers only below the power of two that begins it, and that
power is on the grid and in between.

What is nearest follows the order of the fractions, since a lesser fraction cannot be nearest to a
greater number. So rounding is monotone.

## Contents

* `Ratio.round_eq_iff`, `Ratio.abs_round_le` — the nearest natural number
* `Binary64.Canonical.lt_iff`, `Binary64.unsignedBits` — numbers in order, and their patterns in order
* `Binary64.Nearest`, `Binary64.carried`, `Binary64.exists_nearest` — the nearest number
* `Binary64.nearestBits_mono` — rounding is monotone
* `Binary64.ofFloat_nearest` — the number that is found
-/

namespace Calculator

namespace Ratio

variable {r s : Ratio} {n m : Nat}

/-! ## Natural numbers -/

theorem value_nonneg (r : Ratio) : 0 ≤ r.value := by
  unfold value
  positivity

/-- A fraction is its whole part and the rest. -/
theorem value_eq_floor_add (r : Ratio) : r.value = r.floor + r.twiceRest / (2 * r.den) := by
  have hsplit : (r.num : Rat) = r.den * r.floor + (r.num % r.den : Nat) := by
    exact_mod_cast (Nat.div_add_mod r.num r.den).symm
  have hden := r.den_pos_rat
  rw [value, hsplit, twiceRest]
  push_cast
  field_simp

/-- The rounded number is at most half a unit away, and even if it is exactly half a unit away. -/
theorem round_spec (r : Ratio) :
    |r.value - r.round| < 1 / 2 ∨ |r.value - r.round| = 1 / 2 ∧ Even r.round := by
  have hden := r.den_pos_rat
  have hvalue := r.value_eq_floor_add
  have hlt : (r.twiceRest : Rat) < 2 * r.den := by exact_mod_cast r.twiceRest_lt
  have hnonneg : (0 : Rat) ≤ r.twiceRest := Nat.cast_nonneg _
  unfold round
  split_ifs with hbelow habove
  · -- the rest is less than half a unit
    left
    have hrest : (r.twiceRest : Rat) < r.den := by exact_mod_cast hbelow
    rw [hvalue, add_sub_cancel_left, abs_of_nonneg (by positivity), div_lt_div_iff₀ (by positivity)
      two_pos]
    linarith
  · -- the rest is more than half a unit
    left
    have hrest : (r.den : Rat) < r.twiceRest := by exact_mod_cast habove
    have hupper : (r.twiceRest : Rat) / (2 * r.den) < 1 := by
      rw [div_lt_one (by positivity)]
      exact hlt
    have hlower : (1 : Rat) / 2 < r.twiceRest / (2 * r.den) := by
      rw [div_lt_div_iff₀ two_pos (by positivity)]
      linarith
    rw [hvalue, abs_lt]
    push_cast
    constructor <;> linarith
  · right
    have hrest : (r.twiceRest : Rat) = r.den := by
      exact_mod_cast Nat.le_antisymm (Nat.not_lt.mp habove) (Nat.not_lt.mp hbelow)
    have hhalf : (r.twiceRest : Rat) / (2 * r.den) = 1 / 2 := by
      rw [hrest]
      field_simp
    rcases Nat.mod_two_eq_zero_or_one r.floor with heven | hodd
    · rw [hvalue, hhalf, heven, Nat.add_zero, add_sub_cancel_left]
      exact ⟨abs_of_pos (by norm_num), Nat.even_iff.mpr heven⟩
    · rw [hvalue, hhalf, hodd]
      refine ⟨?_, Nat.even_iff.mpr (by omega)⟩
      push_cast
      rw [show (r.floor : Rat) + 1 / 2 - (r.floor + 1) = -(1 / 2) by ring, abs_neg]
      exact abs_of_pos (by norm_num)

theorem abs_round_le_half (r : Ratio) : |r.value - r.round| ≤ 1 / 2 := by
  rcases r.round_spec with hlt | ⟨heq, -⟩
  · exact hlt.le
  · exact heq.le

/-- Two different natural numbers are a unit apart. -/
theorem one_le_abs_sub (h : n ≠ m) : (1 : Rat) ≤ |(n : Rat) - m| := by
  have hint : (1 : Int) ≤ |(n : Int) - m| := Int.one_le_abs (sub_ne_zero.mpr (by exact_mod_cast h))
  exact_mod_cast hint

/-- **Rounding to a natural number** by `Ratio.round`: the distance is less than half a unit, or it is half a
unit and the number is even. -/
theorem round_eq_iff :
    r.round = n ↔ |r.value - n| < 1 / 2 ∨ |r.value - n| = 1 / 2 ∧ Even n := by
  constructor
  · rintro rfl
    exact r.round_spec
  · intro hn
    by_contra hne
    have hapart := one_le_abs_sub hne
    have htriangle : |(r.round : Rat) - n| ≤ |r.value - r.round| + |r.value - n| := by
      have hsum := abs_sub_le (r.round : Rat) r.value n
      rwa [abs_sub_comm (r.round : Rat) r.value] at hsum
    -- both are half a unit away, so that both are even and next to each other
    rcases r.round_spec with hlt | ⟨heq, heven⟩
    · rcases hn with hn | ⟨hn, -⟩ <;> linarith
    · rcases hn with hn | ⟨hn, heven'⟩
      · linarith
      · have hnext : |(r.round : Int) - n| = 1 := by
          have hle : |(r.round : Rat) - n| ≤ 1 := by linarith
          have hone : |(r.round : Rat) - n| = 1 := le_antisymm hle hapart
          exact_mod_cast hone
        obtain ⟨a, ha⟩ := heven
        obtain ⟨b, hb⟩ := heven'
        rcases (abs_eq zero_le_one).mp hnext with habove | hbelow <;> omega

/-- **No natural number is nearer** than `r.round`. -/
theorem abs_round_le (r : Ratio) (n : Nat) : |r.value - r.round| ≤ |r.value - n| := by
  by_cases h : r.round = n
  · rw [h]
  · have hapart := one_le_abs_sub h
    have hhalf := r.abs_round_le_half
    have htriangle := abs_sub_le (r.round : Rat) r.value n
    rw [abs_sub_comm (r.round : Rat) r.value] at htriangle
    linarith

/-- Rounding does not pass a natural number. -/
theorem le_round_of_le (h : (n : Rat) ≤ r.value) : n ≤ r.round := by
  by_contra hlt
  have hsucc : (r.round : Rat) + 1 ≤ n := by exact_mod_cast Nat.not_le.mp hlt
  have hhalf := (abs_le.mp r.abs_round_le_half).2
  linarith

theorem round_le_of_le (h : r.value ≤ n) : r.round ≤ n := by
  by_contra hlt
  have hsucc : (n : Rat) + 1 ≤ r.round := by exact_mod_cast Nat.not_le.mp hlt
  have hhalf := (abs_le.mp r.abs_round_le_half).1
  linarith

/-- **Rounding keeps the order**: `Ratio.round` is monotone. -/
theorem round_mono (h : r.value ≤ s.value) : r.round ≤ s.round := by
  by_contra hlt
  have hsucc : (s.round : Rat) + 1 ≤ r.round := by exact_mod_cast Nat.not_le.mp hlt
  have hr := (abs_le.mp r.abs_round_le_half).1
  have hs := (abs_le.mp s.abs_round_le_half).2
  -- both would be half a unit away from what they are rounded to, and so the same
  have heq : r.value = s.value := by linarith
  exact hlt (round_congr heq).le

end Ratio

namespace Binary64

/-- The pattern of a number that is not negative, put together from coefficient and exponent. The leading
bit of the coefficient counts as a step of the exponent. -/
def unsignedBits (coefficient : Nat) (exponent : Int) : Nat :=
  (exponent - leastExponent).toNat * 2 ^ 52 + coefficient

section

variable {r s : Ratio} {coefficient coefficient' : Nat} {exponent exponent' : Int}

/-! ## Numbers in order -/

/-- A number with a greater exponent is greater. -/
theorem Canonical.lt_of_exponent_lt (h : Canonical coefficient exponent)
    (h' : Canonical coefficient' exponent') (hlt : exponent < exponent') :
    (coefficient : Rat) * 2 ^ exponent < coefficient' * 2 ^ exponent' := by
  have hnormal : (2 : Rat) ^ (52 : Int) ≤ coefficient' := by
    have hleast := h.least_le
    exact_mod_cast h'.normal.resolve_left (by omega)
  have hcoefficient : (coefficient : Rat) < 2 ^ (53 : Int) := by exact_mod_cast h.coefficient_lt
  have htwo : (2 : Rat) ≠ 0 := two_ne_zero
  calc (coefficient : Rat) * 2 ^ exponent < 2 ^ (53 : Int) * 2 ^ exponent := by gcongr
    _ = 2 ^ (52 : Int) * 2 ^ (exponent + 1) := by
        rw [← zpow_add₀ htwo, ← zpow_add₀ htwo]; congr 1; ring
    _ ≤ 2 ^ (52 : Int) * 2 ^ exponent' := by
        gcongr
        · norm_num
        · omega
    _ ≤ coefficient' * 2 ^ exponent' := by gcongr

/-- **Numbers in order**, where both are `Canonical`: exponents first, coefficients second. -/
theorem Canonical.lt_iff (h : Canonical coefficient exponent)
    (h' : Canonical coefficient' exponent') :
    (coefficient : Rat) * 2 ^ exponent < coefficient' * 2 ^ exponent' ↔
      exponent < exponent' ∨ exponent = exponent' ∧ coefficient < coefficient' := by
  rcases lt_trichotomy exponent exponent' with hlt | rfl | hgt
  · exact ⟨fun _ => .inl hlt, fun _ => h.lt_of_exponent_lt h' hlt⟩
  · rw [mul_lt_mul_iff_left₀ (zpow_pos two_pos exponent), Nat.cast_lt]
    exact ⟨fun hlt => .inr ⟨rfl, hlt⟩, fun hor => hor.elim (fun hlt => absurd hlt (lt_irrefl _)) And.right⟩
  · have hreverse := h'.lt_of_exponent_lt h hgt
    constructor
    · intro hlt
      exact absurd hlt hreverse.not_gt
    · rintro (hlt | ⟨heq, -⟩) <;> omega

/-- Patterns are in the same order. -/
theorem Canonical.unsignedBits_lt_iff (h : Canonical coefficient exponent)
    (h' : Canonical coefficient' exponent') :
    unsignedBits coefficient exponent < unsignedBits coefficient' exponent' ↔
      (coefficient : Rat) * 2 ^ exponent < coefficient' * 2 ^ exponent' := by
  rw [h.lt_iff h']
  have hleast := h.least_le
  have hleast' := h'.least_le
  have hlt := h.coefficient_lt
  have hlt' := h'.coefficient_lt
  have hnormal := h.normal
  have hnormal' := h'.normal
  unfold unsignedBits
  omega

theorem Canonical.unsignedBits_le_iff (h : Canonical coefficient exponent)
    (h' : Canonical coefficient' exponent') :
    unsignedBits coefficient exponent ≤ unsignedBits coefficient' exponent' ↔
      (coefficient : Rat) * 2 ^ exponent ≤ coefficient' * 2 ^ exponent' := by
  rw [← not_lt, h'.unsignedBits_lt_iff h, not_lt]

/-- Numbers of one value have one pattern, and so one coefficient and one exponent. -/
theorem Canonical.unsignedBits_inj (h : Canonical coefficient exponent)
    (h' : Canonical coefficient' exponent')
    (heq : unsignedBits coefficient exponent = unsignedBits coefficient' exponent') :
    coefficient = coefficient' ∧ exponent = exponent' := by
  have hleast := h.least_le
  have hleast' := h'.least_le
  have hlt := h.coefficient_lt
  have hlt' := h'.coefficient_lt
  have hnormal := h.normal
  have hnormal' := h'.normal
  unfold unsignedBits at heq
  omega

/-- Where the numbers end, there is infinity. -/
theorem Canonical.lt_infinityBits_iff (h : Canonical coefficient exponent) :
    unsignedBits coefficient exponent < infinityBits ↔
      (coefficient : Rat) * 2 ^ exponent < 2 ^ (1024 : Int) := by
  have hend : Canonical (2 ^ 52) 972 := ⟨by decide, by decide, .inr le_rfl⟩
  have hbits : unsignedBits (2 ^ 52) 972 = infinityBits := by decide
  have hvalue : ((2 ^ 52 : Nat) : Rat) * 2 ^ (972 : Int) = 2 ^ (1024 : Int) := by
    rw [Nat.cast_pow, Nat.cast_two, ← zpow_natCast, ← zpow_add₀ two_ne_zero]
    rfl
  rw [← hbits, h.unsignedBits_lt_iff hend, hvalue]

/-- Between the finite numbers and the bound beyond which there are none, there is room. -/
theorem Canonical.value_add_two_lt (h : Canonical coefficient exponent) (hle : exponent ≤ 971) :
    (coefficient : Rat) * 2 ^ exponent + 2 < 2 ^ (1024 : Int) := by
  have hcoefficient : (coefficient : Rat) + 1 ≤ 2 ^ (53 : Int) := by exact_mod_cast h.coefficient_lt
  have hpower : (2 : Rat) ^ exponent ≤ 2 ^ (971 : Int) := zpow_le_zpow_right₀ one_le_two hle
  have hstep : (2 : Rat) < 2 ^ (971 : Int) := by
    have hlt : (2 : Rat) ^ (1 : Int) < 2 ^ (971 : Int) := zpow_lt_zpow_right₀ one_lt_two (by decide)
    rwa [zpow_one] at hlt
  calc (coefficient : Rat) * 2 ^ exponent + 2 < coefficient * 2 ^ (971 : Int) + 2 ^ (971 : Int) :=
        add_lt_add_of_le_of_lt (mul_le_mul_of_nonneg_left hpower (Nat.cast_nonneg _)) hstep
    _ = (coefficient + 1) * 2 ^ (971 : Int) := by rw [add_mul, one_mul]
    _ ≤ 2 ^ (53 : Int) * 2 ^ (971 : Int) :=
        mul_le_mul_of_nonneg_right hcoefficient (zpow_pos two_pos _).le
    _ = 2 ^ (1024 : Int) := by
        rw [← zpow_add₀ two_ne_zero]
        rfl

theorem canonical_zero : Canonical 0 leastExponent := ⟨by decide, le_rfl, .inl rfl⟩

/-! ## The nearest number -/

/-- No number is nearer to a value. Numbers beyond the greatest finite one count as well. -/
def Nearest (coefficient : Nat) (exponent : Int) (value : Rat) : Prop :=
  ∀ other otherExponent, Canonical other otherExponent →
    |(coefficient : Rat) * 2 ^ exponent - value| ≤ |(other : Rat) * 2 ^ otherExponent - value|

/-- The exponent on whose grid a fraction is rounded. -/
def gridExponent (r : Ratio) : Int := max (Int.log 2 r.value - 52) leastExponent

theorem leastExponent_le_gridExponent (r : Ratio) : leastExponent ≤ gridExponent r :=
  le_max_right _ _

/-- On its grid a fraction is less than the first power of two that needs another bit. -/
theorem scaled_lt (r : Ratio) :
    (r.scale2 (-gridExponent r)).value < ((2 ^ 53 : Nat) : Rat) := by
  have hupper : r.value < (2 : Rat) ^ (Int.log 2 r.value + 1) := by
    exact_mod_cast Int.lt_zpow_succ_log_self (b := 2) (by decide) r.value
  have hle : (2 : Rat) ^ (Int.log 2 r.value + 1) ≤ 2 ^ (gridExponent r + 53) := by
    apply zpow_le_zpow_right₀ one_le_two
    have hmax := le_max_left (Int.log 2 r.value - 52) leastExponent
    unfold gridExponent
    omega
  rw [Ratio.value_scale2, zpow_neg, ← div_eq_mul_inv, div_lt_iff₀ (zpow_pos two_pos _)]
  calc r.value < 2 ^ (gridExponent r + 53) := hupper.trans_le hle
    _ = ((2 ^ 53 : Nat) : Rat) * 2 ^ gridExponent r := by
        rw [zpow_add₀ two_ne_zero, mul_comm]
        norm_num

/-- On its grid a fraction has its leading bit, unless the grid is the finest one. -/
theorem le_scaled (h : r.num ≠ 0) (hgrid : gridExponent r ≠ leastExponent) :
    ((2 ^ 52 : Nat) : Rat) ≤ (r.scale2 (-gridExponent r)).value := by
  have hlower : (2 : Rat) ^ Int.log 2 r.value ≤ r.value := by
    exact_mod_cast Int.zpow_log_le_self (b := 2) (by decide) (Ratio.value_pos_iff.mpr h)
  have hexponent : Int.log 2 r.value = gridExponent r + 52 := by
    unfold gridExponent at hgrid ⊢
    omega
  rw [Ratio.value_scale2, zpow_neg, ← div_eq_mul_inv, le_div_iff₀ (zpow_pos two_pos _)]
  calc ((2 ^ 52 : Nat) : Rat) * 2 ^ gridExponent r = 2 ^ Int.log 2 r.value := by
        rw [hexponent, zpow_add₀ two_ne_zero, mul_comm]
        norm_num
    _ ≤ r.value := hlower

/-- A number whose exponent is at least that of the grid is on the grid. -/
theorem exists_on_grid (coefficient : Nat) {grid : Int} (hle : grid ≤ exponent) :
    ∃ n : Nat, (coefficient : Rat) * 2 ^ exponent = n * 2 ^ grid := by
  refine ⟨coefficient * 2 ^ (exponent - grid).toNat, ?_⟩
  have hsplit : exponent = ((exponent - grid).toNat : Int) + grid := by omega
  push_cast
  rw [mul_assoc, ← zpow_natCast, ← zpow_add₀ two_ne_zero, ← hsplit]

/-- Of all numbers on the grid the rounded one is nearest. -/
theorem abs_round_le_of_grid (r : Ratio) (grid : Int) (n : Nat) :
    |((r.scale2 (-grid)).round : Rat) * 2 ^ grid - r.value| ≤ |(n : Rat) * 2 ^ grid - r.value| := by
  have hpower : (0 : Rat) < 2 ^ grid := zpow_pos two_pos _
  have hscaled : r.value = (r.scale2 (-grid)).value * 2 ^ grid := by
    rw [Ratio.value_scale2, mul_assoc, ← zpow_add₀ two_ne_zero, neg_add_cancel, zpow_zero, mul_one]
  have hround := (r.scale2 (-grid)).abs_round_le n
  rw [hscaled, ← sub_mul, ← sub_mul, abs_mul, abs_mul, abs_sub_comm, abs_sub_comm (n : Rat)]
  gcongr

/-- **The rounded coefficient is `Nearest`**, also among the numbers off the grid. -/
theorem nearest_round (h : r.num ≠ 0) :
    Nearest (r.scale2 (-gridExponent r)).round (gridExponent r) r.value := by
  intro other otherExponent hother
  by_cases hgrid : gridExponent r ≤ otherExponent
  · obtain ⟨n, hn⟩ := exists_on_grid other hgrid
    rw [hn]
    exact abs_round_le_of_grid r _ n
  · -- the number is below the power of two that begins the grid, and the fraction is not
    have hleast := hother.least_le
    have hnot : gridExponent r ≠ leastExponent := by omega
    have hpower : (0 : Rat) < 2 ^ gridExponent r := zpow_pos two_pos _
    have hfraction : ((2 ^ 52 : Nat) : Rat) * 2 ^ gridExponent r ≤ r.value := by
      have hle := le_scaled h hnot
      rwa [Ratio.value_scale2, zpow_neg, ← div_eq_mul_inv, le_div_iff₀ hpower] at hle
    have hbegin : Canonical (2 ^ 52) (gridExponent r) :=
      ⟨by decide, leastExponent_le_gridExponent r, .inr le_rfl⟩
    have hbelow := hother.lt_of_exponent_lt hbegin (not_le.mp hgrid)
    refine (abs_round_le_of_grid r _ (2 ^ 52)).trans ?_
    rw [abs_sub_comm, abs_sub_comm ((other : Rat) * _), abs_of_nonneg (by linarith),
      abs_of_nonneg (by linarith)]
    linarith

/-! ### Rounding up to a power of two -/

/-- A rounded coefficient with its exponent. If rounding has led to the next power of two, that has the
next exponent. -/
def carried (rounded : Nat) (grid : Int) : Nat × Int :=
  if rounded < 2 ^ 53 then (rounded, grid) else (2 ^ 52, grid + 1)

/-- **What rounding leads to** is `Canonical` once it is `carried`, with the pattern and the value that it
would have without the next exponent. -/
theorem carried_spec {rounded : Nat} {grid : Int} (hle : rounded ≤ 2 ^ 53)
    (hleast : leastExponent ≤ grid) (hnormal : grid = leastExponent ∨ 2 ^ 52 ≤ rounded) :
    Canonical (carried rounded grid).1 (carried rounded grid).2 ∧
      unsignedBits (carried rounded grid).1 (carried rounded grid).2 =
        (grid - leastExponent).toNat * 2 ^ 52 + rounded ∧
      ((carried rounded grid).1 : Rat) * 2 ^ (carried rounded grid).2 = rounded * 2 ^ grid := by
  unfold carried
  rcases hle.lt_or_eq with hlt | heq
  · rw [if_pos hlt]
    exact ⟨⟨hlt, hleast, hnormal⟩, rfl, rfl⟩
  · rw [if_neg (by omega), heq]
    refine ⟨⟨(by decide : 2 ^ 52 < 2 ^ 53), by omega, .inr le_rfl⟩, ?_, ?_⟩
    · unfold unsignedBits
      omega
    · rw [zpow_add_one₀ two_ne_zero]
      push_cast
      ring

/-- The number that a fraction is rounded to on its grid, its pattern, and its value. -/
theorem carried_round_spec (h : r.num ≠ 0) :
    let rounded := carried (r.scale2 (-gridExponent r)).round (gridExponent r)
    Canonical rounded.1 rounded.2 ∧
      nearestBits r = min (unsignedBits rounded.1 rounded.2) infinityBits ∧
      (rounded.1 : Rat) * 2 ^ rounded.2 =
        (r.scale2 (-gridExponent r)).round * 2 ^ gridExponent r := by
  have hgrid := leastExponent_le_gridExponent r
  have hle := Ratio.round_le_of_le (scaled_lt r).le
  have hnormal : gridExponent r = leastExponent ∨
      2 ^ 52 ≤ (r.scale2 (-gridExponent r)).round := by
    by_cases hleast : gridExponent r = leastExponent
    · exact .inl hleast
    · exact .inr (Ratio.le_round_of_le (le_scaled h hleast))
  obtain ⟨hcanonical, hbits, hvalue⟩ := carried_spec hle hgrid hnormal
  refine ⟨hcanonical, ?_, hvalue⟩
  rw [hbits, nearestBits, if_neg h, Ratio.log2_eq h]
  rfl

/-- **The `Nearest` number**, whose pattern is `nearestBits` unless it is beyond all finite numbers. -/
theorem exists_nearest (r : Ratio) :
    ∃ coefficient exponent, Canonical coefficient exponent ∧
      nearestBits r = min (unsignedBits coefficient exponent) infinityBits ∧
      Nearest coefficient exponent r.value := by
  by_cases hnum : r.num = 0
  · refine ⟨0, leastExponent, canonical_zero, ?_, ?_⟩
    · rw [nearestBits, if_pos hnum]
      rfl
    · intro other otherExponent _
      have hvalue : r.value = 0 := by rw [Ratio.value, hnum, Nat.cast_zero, zero_div]
      rw [hvalue, Nat.cast_zero, zero_mul, sub_zero, abs_zero]
      exact abs_nonneg _
  · obtain ⟨hcanonical, hbits, hvalue⟩ := carried_round_spec hnum
    refine ⟨_, _, hcanonical, hbits, fun other otherExponent hother => ?_⟩
    rw [hvalue]
    exact nearest_round hnum other otherExponent hother

/-- What is nearest to a greater value is not less. -/
theorem Nearest.le_of_lt {value value' : Rat} (h : Nearest coefficient exponent value)
    (h' : Nearest coefficient' exponent' value') (hc : Canonical coefficient exponent)
    (hc' : Canonical coefficient' exponent') (hlt : value < value') :
    (coefficient : Rat) * 2 ^ exponent ≤ coefficient' * 2 ^ exponent' := by
  by_contra hgt
  -- one value would be beyond the middle of the two numbers, and the other one would not reach it
  have hfirst := sq_le_sq.mpr (h _ _ hc')
  have hsecond := sq_le_sq.mpr (h' _ _ hc)
  nlinarith [not_le.mp hgt]

/-- **Rounding is monotone**: `nearestBits` keeps the order. -/
theorem nearestBits_mono (h : r.value ≤ s.value) : nearestBits r ≤ nearestBits s := by
  rcases h.eq_or_lt with heq | hlt
  · rw [nearestBits_congr heq]
  · obtain ⟨c, e, hc, hbits, hnearest⟩ := exists_nearest r
    obtain ⟨c', e', hc', hbits', hnearest'⟩ := exists_nearest s
    rw [hbits, hbits']
    exact min_le_min_right _ ((hc.unsignedBits_le_iff hc').mpr (hnearest.le_of_lt hnearest' hc hc' hlt))

theorem toNat_toBits_of_infinite {x : Float} (h : ofFloat x = .infinite false) :
    x.toBits.toNat = infinityBits := by
  rw [infinityBits_eq]
  unfold ofFloat at h
  simp only [Nat.pow_eq] at h
  split at h
  · split at h
    · simp only [Binary64.infinite.injEq, decide_eq_false_iff_not] at h
      omega
    · exact absurd h (by simp)
  · split at h <;> exact absurd h (by simp)

/-- The number that is found is the nearest one, if that is finite, and infinity otherwise. -/
theorem ofFloat_nearest (r : Ratio) :
    ∃ coefficient exponent, Canonical coefficient exponent ∧ Nearest coefficient exponent r.value ∧
      ((coefficient : Rat) * 2 ^ exponent < 2 ^ (1024 : Int) →
        ofFloat (nearest false r) = .finite false coefficient exponent) ∧
      (¬(coefficient : Rat) * 2 ^ exponent < 2 ^ (1024 : Int) →
        ofFloat (nearest false r) = .infinite false) := by
  obtain ⟨c, e, hc, hbits, hnearest⟩ := exists_nearest r
  have hpattern : (nearest false r).toBits.toNat = min (unsignedBits c e) infinityBits :=
    (toNat_toBits_nearest r).trans hbits
  refine ⟨c, e, hc, hnearest, ?_, ?_⟩
  · intro hlt
    have hlt' := hc.lt_infinityBits_iff.mpr hlt
    rw [min_eq_left hlt'.le] at hpattern
    rcases ofFloat_of_le (hpattern.le.trans hlt'.le) with hinfinite | ⟨c', e', hfinite⟩
    · exact absurd hpattern (toNat_toBits_of_infinite hinfinite ▸ hlt'.ne')
    · obtain ⟨hc', -, hbits'⟩ := finite_spec hfinite
      obtain ⟨rfl, rfl⟩ := hc'.unsignedBits_inj hc (hbits'.symm.trans hpattern)
      exact hfinite
  · intro hge
    have hge' := not_lt.mp (hc.lt_infinityBits_iff.not.mpr hge)
    rw [min_eq_right hge'] at hpattern
    have hinfinity : nearest false r = infinity false :=
      Float.toBits_inj.mp (UInt64.toNat_inj.mp (hpattern.trans toNat_toBits_infinity.symm))
    rw [hinfinity]
    decide

end

end Binary64

end Calculator
