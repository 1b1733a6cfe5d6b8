import Calculator.Proofs.Number.Overflow
import Calculator.Proofs.Number.Unit

/-!
# `Proofs.Number.Whole` — rounding to a whole number

A number that may have a fraction has fewer than 53 bits before the point, so the whole number next to it is
a number again, and nothing is rounded but what is meant to be. The same holds for twice a number, as long
as that is not beyond all numbers.

## Contents

* `Binary64.halfAway`, `Binary64.halfAway_mono` — the nearest whole number, a half away from zero
* `Binary64.rational_round` — what is found is that number
* `Binary64.exists_double` — twice a number
-/

namespace Calculator.Binary64

/-- **The nearest whole number**, which `round` computes; a half goes away from zero. -/
def halfAway (value : Rat) : Rat :=
  if value < 0 then -(⌊-value + 1 / 2⌋₊ : Rat) else (⌊value + 1 / 2⌋₊ : Rat)

section

variable {x y z : Float} {value value' : Rat} {negative : Bool} {coefficient : Nat} {exponent : Int}

/-- A value that is a number is rounded to that number. -/
theorem IsRounded.exact (h : IsRounded z (rational y)) (hy : y.isFinite = true) :
    z.isFinite = true ∧ rational z = rational y := by
  have hz := h.isFinite hy (le_add_of_nonneg_right zero_le_one)
  exact ⟨hz, le_antisymm (h.le_of_le hz hy le_rfl) (h.ge_of_ge hz hy le_rfl)⟩

/-! ## Whole numbers -/

theorem halfAway_signedValue (negative : Bool) (h : 0 ≤ value) :
    halfAway (signedValue negative value) = signedValue negative (⌊value + 1 / 2⌋₊ : Rat) := by
  rcases h.eq_or_lt with rfl | hpos
  · have hfloor : ⌊(0 : Rat) + 1 / 2⌋₊ = 0 := by norm_num
    rw [signedValue_zero, halfAway, if_neg (lt_irrefl _), hfloor, Nat.cast_zero, signedValue_zero]
  · cases negative with
    | true =>
        have hneg : signedValue true value < 0 := neg_neg_of_pos hpos
        rw [halfAway, if_pos hneg]
        show -(⌊- -value + 1 / 2⌋₊ : Rat) = -(⌊value + 1 / 2⌋₊ : Rat)
        rw [neg_neg]
    | false => exact if_neg hpos.le.not_gt

/-- **The nearest whole numbers are in order**: `halfAway` is monotone. -/
theorem halfAway_mono (h : value ≤ value') : halfAway value ≤ halfAway value' := by
  unfold halfAway
  split_ifs with hneg hneg' hneg'
  · have hle : ⌊-value' + 1 / 2⌋₊ ≤ ⌊-value + 1 / 2⌋₊ := Nat.floor_mono (by linarith)
    exact neg_le_neg (by exact_mod_cast hle)
  · exact (neg_nonpos.mpr (Nat.cast_nonneg _)).trans (Nat.cast_nonneg _)
  · linarith
  · have hle : ⌊value + 1 / 2⌋₊ ≤ ⌊value' + 1 / 2⌋₊ := Nat.floor_mono (by linarith)
    exact_mod_cast hle

/-- The choice by the rest is the choice of the nearest whole number. -/
theorem floor_add_half (r : Ratio) :
    ⌊r.value + 1 / 2⌋₊ = if r.den ≤ r.twiceRest then r.floor + 1 else r.floor := by
  have hden := r.den_pos_rat
  have hvalue := r.value_eq_floor_add
  have hlt : (r.twiceRest : Rat) < 2 * r.den := by exact_mod_cast r.twiceRest_lt
  have hnonneg : (0 : Rat) ≤ r.twiceRest := Nat.cast_nonneg _
  have hupper : (r.twiceRest : Rat) / (2 * r.den) < 1 := by
    rw [div_lt_one (by positivity)]
    exact hlt
  have hlower : 0 ≤ (r.twiceRest : Rat) / (2 * r.den) := by positivity
  have hpos : 0 ≤ r.value + 1 / 2 := add_nonneg r.value_nonneg (by norm_num)
  split_ifs with hhalf
  · have hrest : (r.den : Rat) ≤ r.twiceRest := by exact_mod_cast hhalf
    have hle : (1 : Rat) / 2 ≤ r.twiceRest / (2 * r.den) := by
      rw [div_le_div_iff₀ two_pos (by positivity)]
      linarith
    rw [Nat.floor_eq_iff hpos, hvalue]
    push_cast
    constructor <;> linarith
  · have hrest : (r.twiceRest : Rat) < r.den := by exact_mod_cast not_le.mp hhalf
    have hlt : (r.twiceRest : Rat) / (2 * r.den) < 1 / 2 := by
      rw [div_lt_div_iff₀ (by positivity) two_pos]
      linarith
    rw [Nat.floor_eq_iff hpos, hvalue]
    constructor <;> linarith

/-- **Rounding to a whole number** by `round` gives `halfAway`, and nothing else is rounded. -/
theorem rational_round (hx : x.isFinite = true) :
    (round x).isFinite = true ∧ rational (round x) = halfAway (rational x) := by
  obtain ⟨negative, c, e, h⟩ := isFinite_iff_ofFloat.mp hx
  have hvalue := value_magnitude c e
  rw [rational_of_ofFloat h, ← hvalue, halfAway_signedValue _ (Ratio.value_nonneg _)]
  cases e with
  | ofNat k =>
      -- there is no fraction
      have hsame : round x = x := by
        unfold round toWhole
        rw [h]
      have hwhole : (magnitude c (.ofNat k)).value = (c * 2 ^ k : Nat) := by
        rw [hvalue]
        push_cast
        rfl
      have hfloor : ⌊((c * 2 ^ k : Nat) : Rat) + 1 / 2⌋₊ = c * 2 ^ k := by
        rw [Nat.floor_eq_iff (by positivity)]
        constructor <;> linarith
      rw [hsame, hwhole, hfloor, rational_of_ofFloat h, ← hvalue, hwhole]
      exact ⟨hx, rfl⟩
  | negSucc k =>
      have hchosen : round x = nearest negative
          (Ratio.ofNat ⌊(magnitude c (.negSucc k)).value + 1 / 2⌋₊) := by
        rw [floor_add_half]
        unfold round toWhole
        rw [h]
      have hsmall : ⌊(magnitude c (.negSucc k)).value + 1 / 2⌋₊ < 2 ^ 53 := by
        have hc : (c : Rat) < 2 ^ 53 := by exact_mod_cast (ofFloat_eq_finite_iff.mp h).1.coefficient_lt
        have hpower : (2 : Rat) ^ (Int.negSucc k) ≤ 1 / 2 := by
          have hle : (2 : Rat) ^ (Int.negSucc k) ≤ 2 ^ (-1 : Int) :=
            zpow_le_zpow_right₀ one_le_two (by omega)
          rwa [zpow_neg_one, ← one_div] at hle
        rw [Nat.floor_lt (add_nonneg (Ratio.value_nonneg _) (by norm_num)), hvalue]
        have hhalf := mul_le_mul_of_nonneg_left hpower (Nat.cast_nonneg (α := Rat) c)
        push_cast
        linarith
      generalize ⌊(magnitude c (.negSucc k)).value + 1 / 2⌋₊ = n at hchosen hsmall ⊢
      obtain ⟨y, hy, hyvalue⟩ : ∃ y : Float, y.isFinite = true ∧ rational y = signedValue negative n := by
        cases negative with
        | true =>
            obtain ⟨y, hy, hyvalue⟩ := exists_rational_eq (w := -n) (by omega) (by omega)
            exact ⟨y, hy, by rw [hyvalue]; push_cast; rfl⟩
        | false =>
            obtain ⟨y, hy, hyvalue⟩ := exists_rational_eq (w := n) (by omega) (by omega)
            exact ⟨y, hy, by rw [hyvalue]; push_cast; rfl⟩
      have hrounded := isRounded_nearest_signed negative (Ratio.ofNat n)
      rw [Ratio.value_ofNat, ← hyvalue] at hrounded
      rw [hchosen, ← hyvalue]
      exact hrounded.exact hy

/-! ## Twice a number -/

/-- Twice a number is a number, unless it is beyond all numbers. -/
theorem Canonical.exists_double (h : Canonical coefficient exponent)
    (hlt : 2 * (coefficient * 2 ^ exponent) < overflow) :
    ∃ c e, Canonical c e ∧ e ≤ 971 ∧ (c : Rat) * 2 ^ e = 2 * (coefficient * 2 ^ exponent) := by
  by_cases hnormal : 2 ^ 52 ≤ coefficient
  · -- the exponent is one more
    have hnext : Canonical coefficient (exponent + 1) :=
      ⟨h.coefficient_lt, h.least_le.trans (by omega), .inr hnormal⟩
    have hvalue : (coefficient : Rat) * 2 ^ (exponent + 1) = 2 * (coefficient * 2 ^ exponent) := by
      rw [zpow_add_one₀ two_ne_zero]
      ring
    refine ⟨coefficient, exponent + 1, hnext, ?_, hvalue⟩
    refine hnext.le_of_unsignedBits_lt (hnext.lt_infinityBits_iff.mpr ?_)
    exact (hvalue.trans_lt hlt).trans overflow_lt
  · -- the coefficient is twice as great
    have hleast := h.normal.resolve_right hnormal
    refine ⟨2 * coefficient, exponent, ⟨by omega, h.least_le, .inl hleast⟩, ?_, ?_⟩
    · rw [hleast]
      decide
    · push_cast
      ring

/-- **Twice a number** is a number, unless it is beyond `overflow`. -/
theorem exists_double (hx : x.isFinite = true) (hlt : 2 * |rational x| < overflow) :
    ∃ y : Float, y.isFinite = true ∧ rational y = 2 * rational x := by
  obtain ⟨negative, c, e, h⟩ := isFinite_iff_ofFloat.mp hx
  rw [rational_of_ofFloat h] at hlt ⊢
  rw [abs_signedValue _ (by positivity)] at hlt
  obtain ⟨c', e', hcanonical, hle, hvalue⟩ := (ofFloat_eq_finite_iff.mp h).1.exists_double hlt
  obtain ⟨y, hy⟩ := hcanonical.exists_ofFloat hle
  have hfinite := isFinite_of_ofFloat hy
  have hmagnitude : rational y = 2 * (c * 2 ^ e) := (rational_of_ofFloat hy).trans hvalue
  cases negative with
  | true =>
      refine ⟨-y, isFinite_neg hfinite, ?_⟩
      rw [rational_neg hfinite, hmagnitude]
      exact (mul_neg _ _).symm
  | false => exact ⟨y, hfinite, hmagnitude⟩

end

end Calculator.Binary64
