import Calculator.Proofs.Number.Positional

/-!
# `Proofs.Number.Exponential` — results with an exponent

A result that is not zero and too small for its places is written with one digit, six places and an
exponent. The exponent is the decimal logarithm of the magnitude, or one more if rounding leads to the next
power of ten. As the magnitude is less than a millionth, the exponent is negative, so that a minus sign
stands in the middle of the text.

## Contents

* `Ratio.log10_eq` — the decimal logarithm
* `Ratio.roundedDigits`, `value_leadingDigits` — the number that the leading digits stand for
* `leadingDigits_spec`, `intLog_of_not_positional` — the digits and their exponent
* `resultNumeral_of_not_positional` — the text of a result with an exponent
-/

namespace Calculator

namespace Ratio

variable {r : Ratio}

/-- **The decimal logarithm** that `Ratio.log10` reads off the digits of the fraction or its reciprocal is
`Int.log`. -/
theorem log10_eq (h : r.num ≠ 0) : r.log10 = Int.log 10 r.value := by
  unfold log10
  by_cases hle : r.den ≤ r.num
  · have hone : 1 ≤ r.value := one_le_value_iff.mpr hle
    have hfloor : r.floor ≠ 0 := (Nat.div_pos hle r.den_pos).ne'
    rw [if_pos hle, Decimal.digitCount_eq hfloor, Int.log_of_one_le_right 10 hone, value,
      Nat.floor_div_eq_div]
    push_cast
    exact add_sub_cancel_right _ _
  · have hnum : 0 < r.num := Nat.pos_of_ne_zero h
    have hpred : (r.den - 1) / r.num ≠ 0 := (Nat.div_pos (by omega) hnum).ne'
    -- the reciprocal is above a power of ten and does not exceed the next one
    have hlower : 10 ^ Nat.log 10 ((r.den - 1) / r.num) * r.num < r.den := by
      have hpower := (Nat.le_div_iff_mul_le hnum).mp (Nat.pow_log_le_self 10 hpred)
      omega
    have hupper : r.den ≤ r.num * 10 ^ (Nat.log 10 ((r.den - 1) / r.num) + 1) := by
      have hnext : (r.den - 1) / r.num + 1 ≤ 10 ^ (Nat.log 10 ((r.den - 1) / r.num) + 1) :=
        Nat.lt_pow_succ_log_self (by decide) _
      have hmultiple := Nat.lt_mul_div_succ (r.den - 1) hnum
      have hscaled := Nat.mul_le_mul_left r.num hnext
      omega
    have hlower' : (10 : Rat) ^ Nat.log 10 ((r.den - 1) / r.num) * r.num < r.den := by
      exact_mod_cast hlower
    have hupper' : (r.den : Rat) ≤ r.num * 10 ^ (Nat.log 10 ((r.den - 1) / r.num) + 1) := by
      exact_mod_cast hupper
    rw [if_neg hle, Decimal.digitCount_eq hpred]
    refine (intLog_eq_of_bounds (by decide) ?_ ?_).symm
    · rw [zpow_neg, zpow_natCast, value, le_div_iff₀ r.den_pos_rat, inv_mul_le_iff₀ (by positivity)]
      push_cast
      linarith
    · have hexponent : -((Nat.log 10 ((r.den - 1) / r.num) + 1 : Nat) : Int) + 1 =
          -(Nat.log 10 ((r.den - 1) / r.num) : Nat) := by
        push_cast
        ring
      rw [hexponent, zpow_neg, zpow_natCast, value, div_lt_iff₀ r.den_pos_rat,
        inv_mul_eq_div, lt_div_iff₀ (by positivity)]
      push_cast
      linarith

/-- The fraction rounded to `places + 1` digits. -/
def roundedDigits (r : Ratio) (places : Nat) : Rat :=
  (r.scale10 (places - r.log10)).round * 10 ^ (r.log10 - places)

end Ratio

section

variable {x : Float} {negative : Bool} {coefficient places : Nat} {exponent : Int} {r : Ratio}

/-- **What the leading digits stand for** is `roundedDigits`: the digits of the next power of ten stand for
the same, in a greater unit. -/
theorem value_leadingDigits (places : Nat) (r : Ratio) :
    ((leadingDigits places r).1 : Rat) * 10 ^ ((leadingDigits places r).2 - places) =
      r.roundedDigits places := by
  unfold leadingDigits Ratio.roundedDigits
  by_cases hcarry : (r.scale10 (places - r.log10)).round = Nat.pow 10 (places + 1)
  · simp only [hcarry, if_true]
    rw [add_sub_right_comm, zpow_add_one₀ (by norm_num), Nat.pow_eq, Nat.pow_eq, pow_succ]
    push_cast
    ring
  · simp only [hcarry, if_false]

/-- On the grid of the last place the fraction has all its places, and at most those of the next power of
ten. -/
theorem round_scale10_bounds (h : r.num ≠ 0) (places : Nat) :
    10 ^ places ≤ (r.scale10 (places - r.log10)).round ∧
      (r.scale10 (places - r.log10)).round ≤ 10 ^ (places + 1) := by
  have hten : (10 : Rat) ≠ 0 := by norm_num
  have hunit : ∀ k : Int, (0 : Rat) < 10 ^ k := fun k => zpow_pos (by norm_num) k
  have hscaled : (r.scale10 (places - r.log10)).value = r.value * 10 ^ ((places : Int) - r.log10) :=
    r.value_scale10 _
  have hlog := Ratio.log10_eq h
  constructor
  · have hle : (10 : Rat) ^ Int.log 10 r.value ≤ r.value := by
      exact_mod_cast Int.zpow_log_le_self (b := 10) (by decide) (Ratio.value_pos_iff.mpr h)
    refine Ratio.le_round_of_le ?_
    rw [hscaled, hlog]
    calc ((10 ^ places : Nat) : Rat)
        = 10 ^ Int.log 10 r.value * 10 ^ ((places : Int) - Int.log 10 r.value) := by
          rw [← zpow_add₀ hten, add_sub_cancel, zpow_natCast, Nat.cast_pow, Nat.cast_ofNat]
      _ ≤ r.value * 10 ^ ((places : Int) - Int.log 10 r.value) :=
          mul_le_mul_of_nonneg_right hle (hunit _).le
  · have hlt : r.value ≤ (10 : Rat) ^ (Int.log 10 r.value + 1) := by
      exact_mod_cast (Int.lt_zpow_succ_log_self (b := 10) (by decide) r.value).le
    refine Ratio.round_le_of_le ?_
    rw [hscaled, hlog]
    calc r.value * 10 ^ ((places : Int) - Int.log 10 r.value)
        ≤ 10 ^ (Int.log 10 r.value + 1) * 10 ^ ((places : Int) - Int.log 10 r.value) :=
          mul_le_mul_of_nonneg_right hlt (hunit _).le
      _ = 10 ^ ((places : Int) + 1) := by
          rw [← zpow_add₀ hten]
          exact congrArg _ (by ring)
      _ = ((10 ^ (places + 1) : Nat) : Rat) := by
          push_cast
          exact zpow_natCast 10 (places + 1)

/-- **The `leadingDigits`** are as many as they should be, their exponent is the logarithm or one more, and
what they stand for is within half a unit of the last one. -/
theorem leadingDigits_spec (h : r.num ≠ 0) (places : Nat) :
    10 ^ places ≤ (leadingDigits places r).1 ∧ (leadingDigits places r).1 < 10 ^ (places + 1) ∧
      Int.log 10 r.value ≤ (leadingDigits places r).2 ∧
      (leadingDigits places r).2 ≤ Int.log 10 r.value + 1 ∧
      |(leadingDigits places r).1 * (10 : Rat) ^ ((leadingDigits places r).2 - places) - r.value| ≤
        10 ^ ((leadingDigits places r).2 - places) / 2 := by
  obtain ⟨hle, hge⟩ := round_scale10_bounds h places
  have hhalf : |r.roundedDigits places - r.value| ≤ 10 ^ (r.log10 - (places : Int)) / 2 := by
    have hunit : (0 : Rat) < 10 ^ (r.log10 - (places : Int)) := zpow_pos (by norm_num) _
    have hround := (r.scale10 (places - r.log10)).abs_round_le_half
    have hback : r.value = r.value * 10 ^ ((places : Int) - r.log10) * 10 ^ (r.log10 - (places : Int)) := by
      rw [mul_assoc, ← zpow_add₀ (by norm_num), sub_add_sub_cancel, sub_self, zpow_zero, mul_one]
    rw [Ratio.value_scale10, abs_sub_comm] at hround
    rw [Ratio.roundedDigits, hback, ← sub_mul, abs_mul, abs_of_pos hunit, div_eq_mul_inv,
      mul_comm _ (2 : Rat)⁻¹]
    exact mul_le_mul_of_nonneg_right (hround.trans_eq (one_div 2)) hunit.le
  rw [value_leadingDigits, ← Ratio.log10_eq h]
  unfold leadingDigits
  by_cases hcarry : (r.scale10 (places - r.log10)).round = Nat.pow 10 (places + 1)
  · -- the unit of the last place grows with the exponent
    have hgrown : (10 : Rat) ^ (r.log10 - (places : Int)) ≤ 10 ^ (r.log10 + 1 - (places : Int)) :=
      zpow_le_zpow_right₀ (by norm_num) (by omega)
    simp only [hcarry, if_true]
    refine ⟨le_rfl, Nat.pow_lt_pow_right (by decide) (Nat.lt_succ_self places), by omega, le_rfl, ?_⟩
    linarith
  · simp only [hcarry, if_false]
    exact ⟨hle, lt_of_le_of_ne hge hcarry, le_rfl, by omega, hhalf⟩

/-- The logarithm of a magnitude that is not zero and less than a millionth. -/
theorem intLog_of_not_positional
    (h : Binary64.ofFloat x = .finite negative coefficient exponent) (hx : ¬Positional x) :
    coefficient ≠ 0 ∧ -1074 ≤ Int.log 10 (Binary64.magnitude coefficient exponent).value ∧
      Int.log 10 (Binary64.magnitude coefficient exponent).value < -6 := by
  obtain ⟨hne, hsmall⟩ := not_or.mp ((positional_iff h).not.mp hx)
  have hpos := Binary64.value_pos hne exponent
  rw [Binary64.value_magnitude]
  refine ⟨hne, (Int.zpow_le_iff_le_log (by decide) hpos).mp ?_,
    (Int.lt_zpow_iff_log_lt (by decide) hpos).mp ?_⟩
  · have hunit : (1 : Rat) ≤ coefficient := by exact_mod_cast Nat.one_le_iff_ne_zero.mpr hne
    have hleast := (Binary64.ofFloat_eq_finite_iff.mp h).1.least_le
    calc ((10 : Nat) : Rat) ^ (-1074 : Int) ≤ 2 ^ (-1074 : Int) := by
          rw [zpow_neg, zpow_neg]
          exact inv_anti₀ (by positivity)
            (zpow_le_zpow_left₀ (by decide) (by norm_num) (by norm_num))
      _ ≤ 2 ^ exponent := zpow_le_zpow_right₀ one_le_two hleast
      _ ≤ coefficient * 2 ^ exponent := le_mul_of_one_le_left (zpow_pos two_pos _).le hunit
  · refine (not_le.mp hsmall).trans ?_
    rw [rational_leastPositional]
    norm_num

/-- **The text of a result with an exponent** (not `Positional`): one digit before the point that is not zero,
`exponentialPlaces` behind it, and an exponent with a minus sign. It stands for the magnitude rounded to its
leading digits (`roundedDigits`), and is within half a unit of the sixth place. -/
theorem resultNumeral_of_not_positional
    (h : Binary64.ofFloat x = .finite negative coefficient exponent) (hx : ¬Positional x) :
    ∃ rounded power : Nat, 10 ^ 6 ≤ rounded ∧ rounded < 10 ^ 7 ∧ 0 < power ∧ power ≤ 1074 ∧
      |(rounded : Rat) / 10 ^ (power + 6) - coefficient * 2 ^ exponent| ≤ 1 / 2 / 10 ^ (power + 6) ∧
      resultNumeral x =
        signed negative
          (placed exponentialPlaces rounded ++ 'e' :: '-' :: Nat.toDigits 10 power) ∧
      (rounded : Rat) / 10 ^ (power + 6) =
        (Binary64.magnitude coefficient exponent).roundedDigits exponentialPlaces := by
  obtain ⟨hne, hleast, hlog⟩ := intLog_of_not_positional h hx
  have hbranch : (x != 0 && decide (x.abs < leastPositional)) = true := by
    obtain ⟨hzero, hless⟩ := not_or.mp hx
    simp only [bne, Bool.not_eq_true] at hzero ⊢
    rw [hzero, decide_eq_true (not_not.mp hless)]
    rfl
  have hnum : (Binary64.magnitude coefficient exponent).num ≠ 0 := by
    rw [← Ratio.value_pos_iff, Binary64.value_magnitude]
    exact Binary64.value_pos hne exponent
  obtain ⟨hge, hlt, hlower, hupper, herror⟩ := leadingDigits_spec hnum exponentialPlaces
  have hvalue := value_leadingDigits exponentialPlaces (Binary64.magnitude coefficient exponent)
  obtain ⟨n, hn⟩ : ∃ n : Nat,
      (leadingDigits exponentialPlaces (Binary64.magnitude coefficient exponent)).2 =
        Int.negSucc n := Int.eq_negSucc_of_lt_zero (by omega)
  have hunit : (10 : Rat) ^ (Int.negSucc n - (exponentialPlaces : Int)) = 1 / 10 ^ (n + 1 + 6) := by
    have hexponent : Int.negSucc n - (exponentialPlaces : Int) = -((n + 1 + 6 : Nat) : Int) := by
      rw [show exponentialPlaces = 6 from rfl]
      omega
    rw [hexponent, zpow_neg, zpow_natCast, one_div]
  rw [hn, hunit, mul_one_div] at hvalue
  rw [Binary64.value_magnitude, hn, hunit, mul_one_div, div_right_comm] at herror
  refine ⟨_, n + 1, hge, hlt, Nat.succ_pos n, by omega, herror, ?_, hvalue⟩
  unfold resultNumeral
  rw [if_pos hbranch]
  unfold scientificNumeral
  simp only [h, if_neg hne, hn]
  rfl

end

end Calculator
