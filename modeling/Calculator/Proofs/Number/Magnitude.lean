import Calculator.Number.Shortest
import Mathlib.Data.Int.Log
import Mathlib.Data.Rat.Floor
import Mathlib.Data.Nat.Digits.Lemmas
import Mathlib.Tactic

/-!
# `Proofs.Number.Magnitude` — a fraction counts for its value alone

One rational number can be written as many fractions, and one decimal as many coefficients with as many
exponents. What is computed from them looks at numerators and denominators, at leading bits and at numbers
of digits, and still it depends on the value alone: the leading exponents are logarithms of the value,
rounding compares the value with its neighbours, and the bounds beyond which a decimal is not computed at
all are bounds on its value. So two decimals of one value are read as one number.

A number is the value of its coefficient and exponent, and nothing needs to be rounded to get back to it.

## Contents

* `Ratio.value`, `Ratio.value_scale` — the value of a fraction
* `Ratio.log2_eq`, `Ratio.round_congr`, `Binary64.nearestBits_congr` — what depends on it alone
* `Decimal.value`, `Decimal.toFloat_congr` — decimals
* `Binary64.Canonical`, `Binary64.nearestBits_magnitude` — the way back to coefficient and exponent
-/

namespace Calculator

/-- Where a power of the base and the next one enclose a number, the power is its logarithm. -/
theorem intLog_eq_of_bounds {b : Nat} (hb : 1 < b) {k : Int} {v : Rat} (hlower : (b : Rat) ^ k ≤ v)
    (hupper : v < (b : Rat) ^ (k + 1)) : Int.log b v = k := by
  have hbase : (0 : Rat) < b := by exact_mod_cast Nat.zero_lt_of_lt hb
  have hv : 0 < v := lt_of_lt_of_le (zpow_pos hbase k) hlower
  have hle := (Int.zpow_le_iff_le_log hb hv).mp hlower
  have hlt := (Int.lt_zpow_iff_log_lt hb hv).mp hupper
  omega

namespace Ratio

/-- The rational number that a fraction denotes. -/
def value (r : Ratio) : Rat := r.num / r.den

section

variable {r s : Ratio}

theorem den_pos_rat (r : Ratio) : (0 : Rat) < r.den := by exact_mod_cast r.den_pos

theorem value_ofNat (n : Nat) : (ofNat n).value = n := by simp [value, ofNat]

theorem value_pos_iff : 0 < r.value ↔ r.num ≠ 0 := by
  rw [value, div_pos_iff_of_pos_right r.den_pos_rat, Nat.cast_pos, Nat.pos_iff_ne_zero]

theorem one_le_value_iff : 1 ≤ r.value ↔ r.den ≤ r.num := by
  rw [value, one_le_div r.den_pos_rat, Nat.cast_le]

/-- Two fractions have one value if they agree when multiplied crosswise. -/
theorem value_eq_iff : r.value = s.value ↔ r.num * s.den = s.num * r.den := by
  rw [value, value, div_eq_div_iff r.den_pos_rat.ne' s.den_pos_rat.ne']
  exact_mod_cast Iff.rfl

theorem value_scale (r : Ratio) {base : Nat} (base_pos : 0 < base) (k : Int) :
    (r.scale base base_pos k).value = r.value * (base : Rat) ^ k := by
  cases k with
  | ofNat k =>
      simp only [scale, value, Int.ofNat_eq_natCast, zpow_natCast]
      push_cast [Nat.pow_eq]
      ring
  | negSucc k =>
      simp only [scale, value, zpow_negSucc]
      push_cast [Nat.pow_eq]
      rw [div_mul_eq_div_div, div_eq_mul_inv _ ((base : Rat) ^ (k + 1))]

theorem value_scale2 (r : Ratio) (k : Int) : (r.scale2 k).value = r.value * (2 : Rat) ^ k :=
  r.value_scale (by decide) k

theorem value_scale10 (r : Ratio) (k : Int) : (r.scale10 k).value = r.value * (10 : Rat) ^ k :=
  r.value_scale (by decide) k

/-! ## What depends on the value alone -/

/-- The leading bits of numerator and denominator tell the logarithm up to one. -/
theorem value_bounds (h : r.num ≠ 0) :
    (2 : Rat) ^ ((r.num.log2 : Int) - r.den.log2 - 1) < r.value ∧
      r.value < (2 : Rat) ^ ((r.num.log2 : Int) - r.den.log2 + 1) := by
  have hnum : (2 : Rat) ^ (r.num.log2 : Int) ≤ r.num := by
    exact_mod_cast Nat.log2_self_le h
  have hnum' : (r.num : Rat) < 2 ^ ((r.num.log2 : Int) + 1) := by
    exact_mod_cast Nat.lt_log2_self (n := r.num)
  have hden : (2 : Rat) ^ (r.den.log2 : Int) ≤ r.den := by
    exact_mod_cast Nat.log2_self_le r.den_pos.ne'
  have hden' : (r.den : Rat) < 2 ^ ((r.den.log2 : Int) + 1) := by
    exact_mod_cast Nat.lt_log2_self (n := r.den)
  have htwo : (2 : Rat) ≠ 0 := two_ne_zero
  constructor
  · rw [value, lt_div_iff₀ r.den_pos_rat]
    calc (2 : Rat) ^ ((r.num.log2 : Int) - r.den.log2 - 1) * r.den
        < 2 ^ ((r.num.log2 : Int) - r.den.log2 - 1) * 2 ^ ((r.den.log2 : Int) + 1) := by gcongr
      _ = 2 ^ (r.num.log2 : Int) := by rw [← zpow_add₀ htwo]; congr 1; ring
      _ ≤ r.num := hnum
  · rw [value, div_lt_iff₀ r.den_pos_rat]
    calc (r.num : Rat) < 2 ^ ((r.num.log2 : Int) + 1) := hnum'
      _ = 2 ^ ((r.num.log2 : Int) - r.den.log2 + 1) * 2 ^ (r.den.log2 : Int) := by
          rw [← zpow_add₀ htwo]; congr 1; ring
      _ ≤ 2 ^ ((r.num.log2 : Int) - r.den.log2 + 1) * r.den := by gcongr

theorem log2_eq (h : r.num ≠ 0) : r.log2 = Int.log 2 r.value := by
  obtain ⟨hlower, hupper⟩ := value_bounds h
  have htwo : (0 : Rat) < 2 := two_pos
  have hscaled : (r.scale2 (-((r.num.log2 : Int) - r.den.log2))).den ≤
      (r.scale2 (-((r.num.log2 : Int) - r.den.log2))).num ↔
        (2 : Rat) ^ ((r.num.log2 : Int) - r.den.log2) ≤ r.value := by
    rw [← one_le_value_iff, value_scale2, zpow_neg, ← div_eq_mul_inv,
      one_le_div (zpow_pos htwo _)]
  unfold log2
  simp only [hscaled]
  split
  · rename_i hle
    exact (intLog_eq_of_bounds (by decide) (by exact_mod_cast hle) (by exact_mod_cast hupper)).symm
  · rename_i hlt
    refine (intLog_eq_of_bounds (by decide) (by exact_mod_cast hlower.le) ?_).symm
    rw [sub_add_cancel]
    exact_mod_cast not_le.mp hlt

theorem floor_congr (h : r.value = s.value) : r.floor = s.floor := by
  have hcross := value_eq_iff.mp h
  unfold floor
  rw [← Nat.mul_div_mul_right r.num r.den s.den_pos, hcross, Nat.mul_comm r.den s.den,
    Nat.mul_div_mul_right _ _ r.den_pos]

theorem twiceRest_cross (h : r.value = s.value) : r.twiceRest * s.den = s.twiceRest * r.den := by
  have hcross := value_eq_iff.mp h
  unfold twiceRest
  rw [Nat.mul_assoc, Nat.mul_assoc, ← Nat.mul_mod_mul_right, hcross, ← Nat.mul_mod_mul_right,
    Nat.mul_comm r.den s.den]

theorem twiceRest_lt_congr (h : r.value = s.value) :
    r.twiceRest < r.den ↔ s.twiceRest < s.den := by
  rw [← Nat.mul_lt_mul_right s.den_pos, twiceRest_cross h, Nat.mul_comm r.den s.den,
    Nat.mul_lt_mul_right r.den_pos]

theorem lt_twiceRest_congr (h : r.value = s.value) :
    r.den < r.twiceRest ↔ s.den < s.twiceRest := by
  rw [← Nat.mul_lt_mul_right s.den_pos, twiceRest_cross h, Nat.mul_comm r.den s.den,
    Nat.mul_lt_mul_right r.den_pos]

theorem round_congr (h : r.value = s.value) : r.round = s.round := by
  unfold round
  simp only [floor_congr h, twiceRest_lt_congr h, lt_twiceRest_congr h]

theorem round_ofNat (n : Nat) : (ofNat n).round = n := by
  simp [round, twiceRest, floor, ofNat, Nat.mod_one]

end

end Ratio

namespace Binary64

variable {r s : Ratio} {coefficient : Nat} {exponent : Int}

theorem nearestBits_congr (h : r.value = s.value) : nearestBits r = nearestBits s := by
  have hzero : r.num = 0 ↔ s.num = 0 := by
    rw [← not_iff_not, ← ne_eq, ← ne_eq, ← Ratio.value_pos_iff, ← Ratio.value_pos_iff, h]
  unfold nearestBits
  by_cases hnum : r.num = 0
  · rw [if_pos hnum, if_pos (hzero.mp hnum)]
  · rw [if_neg hnum, if_neg (fun h' => hnum (hzero.mpr h')), Ratio.log2_eq hnum,
      Ratio.log2_eq fun h' => hnum (hzero.mpr h'), h]
    have hround : ∀ k, (r.scale2 k).round = (s.scale2 k).round := fun k =>
      Ratio.round_congr (by rw [Ratio.value_scale2, Ratio.value_scale2, h])
    simp only [hround]

theorem nearest_congr (negative : Bool) (h : r.value = s.value) :
    nearest negative r = nearest negative s := by
  unfold nearest
  rw [nearestBits_congr h]

theorem nearestBits_le (r : Ratio) : nearestBits r ≤ infinityBits := by
  unfold nearestBits
  split
  · exact Nat.zero_le _
  · exact Nat.min_le_right _ _

/-- Coefficient and exponent as a number has them: the leading bit of the coefficient is set, unless the
exponent is the least one. -/
structure Canonical (coefficient : Nat) (exponent : Int) : Prop where
  coefficient_lt : coefficient < 2 ^ 53
  least_le : leastExponent ≤ exponent
  normal : exponent = leastExponent ∨ 2 ^ 52 ≤ coefficient

theorem value_magnitude (coefficient : Nat) (exponent : Int) :
    (magnitude coefficient exponent).value = coefficient * (2 : Rat) ^ exponent := by
  rw [magnitude, Ratio.value_scale2, Ratio.value_ofNat]

theorem intLog_magnitude (h : coefficient ≠ 0) :
    Int.log 2 (magnitude coefficient exponent).value = coefficient.log2 + exponent := by
  have hpower : (0 : Rat) < 2 ^ exponent := zpow_pos two_pos _
  have htwo : (2 : Rat) ≠ 0 := two_ne_zero
  have hlower : (2 : Rat) ^ (coefficient.log2 : Int) ≤ coefficient := by
    exact_mod_cast Nat.log2_self_le h
  have hupper : (coefficient : Rat) < 2 ^ ((coefficient.log2 : Int) + 1) := by
    exact_mod_cast Nat.lt_log2_self (n := coefficient)
  rw [value_magnitude]
  refine intLog_eq_of_bounds (by decide) ?_ ?_
  · push_cast
    rw [zpow_add₀ htwo]
    exact mul_le_mul_of_nonneg_right hlower hpower.le
  · push_cast
    rw [add_right_comm, zpow_add₀ htwo]
    exact mul_lt_mul_of_pos_right hupper hpower

/-- **The way back**: `nearestBits` rounds nothing where coefficient and exponent are `Canonical`. -/
theorem nearestBits_magnitude (h : Canonical coefficient exponent) :
    nearestBits (magnitude coefficient exponent) =
      min ((exponent - leastExponent).toNat * 2 ^ 52 + coefficient) infinityBits := by
  have hvalue := value_magnitude coefficient exponent
  by_cases hzero : coefficient = 0
  · subst hzero
    have hnum : (magnitude 0 exponent).num = 0 := by
      by_contra hne
      have hpos := Ratio.value_pos_iff.mpr hne
      rw [hvalue] at hpos
      simp at hpos
    have hleast : exponent = leastExponent := h.normal.resolve_right (by decide)
    rw [nearestBits, if_pos hnum, hleast]
    simp [infinityBits]
  · have hnum : (magnitude coefficient exponent).num ≠ 0 := by
      rw [← Ratio.value_pos_iff, hvalue]
      have hpos : (0 : Rat) < coefficient := by exact_mod_cast Nat.pos_of_ne_zero hzero
      exact mul_pos hpos (zpow_pos two_pos _)
    -- the leading bit tells the exponent, unless that would be less than the least one
    have hexponent : max ((magnitude coefficient exponent).log2 - 52) leastExponent = exponent := by
      rw [Ratio.log2_eq hnum, intLog_magnitude hzero]
      have hlt : coefficient.log2 < 53 := (Nat.log2_lt hzero).mpr h.coefficient_lt
      have hleast := h.least_le
      rcases h.normal with heq | hle
      · omega
      · have hle' : 52 ≤ coefficient.log2 := (Nat.le_log2 hzero).mpr hle
        omega
    have hround : ((magnitude coefficient exponent).scale2 (-exponent)).round = coefficient := by
      have hscaled : ((magnitude coefficient exponent).scale2 (-exponent)).value =
          (Ratio.ofNat coefficient).value := by
        rw [Ratio.value_scale2, hvalue, Ratio.value_ofNat, mul_assoc, ← zpow_add₀ two_ne_zero,
          add_neg_cancel, zpow_zero, mul_one]
      rw [Ratio.round_congr hscaled, Ratio.round_ofNat]
    rw [nearestBits, if_neg hnum]
    simp only [hexponent, hround]
    rfl

end Binary64

/-! ## Decimals -/

namespace Decimal

/-- The rational number that a decimal denotes. -/
def value (d : Decimal) : Rat := d.coefficient * (10 : Rat) ^ d.exponent

variable {d d' : Decimal}

theorem value_toRatio (d : Decimal) : d.toRatio.value = d.value := by
  rw [toRatio, Ratio.value_scale10, Ratio.value_ofNat, value]

theorem value_ne_zero_iff : d.value ≠ 0 ↔ d.coefficient ≠ 0 := by
  have hpower : (10 : Rat) ^ d.exponent ≠ 0 := zpow_ne_zero _ (by norm_num)
  rw [value, mul_ne_zero_iff, Nat.cast_ne_zero, and_iff_left hpower]

theorem digitCount_eq {n : Nat} (h : n ≠ 0) : Ratio.digitCount n = Nat.log 10 n + 1 := by
  rw [Ratio.digitCount, if_neg h]
  have hle : (Nat.toDigits 10 n).length ≤ Nat.log 10 n + 1 :=
    (Nat.length_toDigits_le_iff (by decide) (Nat.succ_pos _)).mpr
      (Nat.lt_pow_succ_log_self (by decide) n)
  have hge : ¬(Nat.toDigits 10 n).length ≤ Nat.log 10 n := by
    intro hle'
    rcases Nat.eq_zero_or_pos (Nat.log 10 n) with hzero | hpos
    · exact absurd hle' (by rw [hzero]; exact Nat.not_le.mpr Nat.length_toDigits_pos)
    · exact absurd ((Nat.length_toDigits_le_iff (by decide) hpos).mp hle')
        (Nat.not_lt.mpr (Nat.pow_log_le_self 10 h))
  omega

/-- The exponent of the leading digit is the logarithm of the value. -/
theorem size_eq (h : d.coefficient ≠ 0) : d.size = Int.log 10 d.value + 1 := by
  have hpower : (0 : Rat) < 10 ^ d.exponent := zpow_pos (by norm_num) _
  have hten : (10 : Rat) ≠ 0 := by norm_num
  have hlower : (10 : Rat) ^ (Nat.log 10 d.coefficient : Int) ≤ d.coefficient := by
    exact_mod_cast Nat.pow_log_le_self 10 h
  have hupper : (d.coefficient : Rat) < 10 ^ ((Nat.log 10 d.coefficient : Int) + 1) := by
    exact_mod_cast Nat.lt_pow_succ_log_self (by decide) d.coefficient
  have hlog : Int.log 10 d.value = Nat.log 10 d.coefficient + d.exponent := by
    refine intLog_eq_of_bounds (by decide) ?_ ?_
    · push_cast
      rw [value, zpow_add₀ hten]
      exact mul_le_mul_of_nonneg_right hlower hpower.le
    · push_cast
      rw [value, add_right_comm, zpow_add₀ hten]
      exact mul_lt_mul_of_pos_right hupper hpower
  rw [size, digitCount_eq h, hlog]
  push_cast
  ring

/-- **Decimals of one `value` are read as one number** by `toFloat`. -/
theorem toFloat_congr (negative : Bool) (h : d.value = d'.value) :
    d.toFloat negative = d'.toFloat negative := by
  have hzero : d.coefficient = 0 ↔ d'.coefficient = 0 := by
    rw [← not_iff_not, ← ne_eq, ← ne_eq, ← value_ne_zero_iff, ← value_ne_zero_iff, h]
  unfold toFloat
  by_cases hd : d.coefficient = 0
  · rw [if_pos hd, if_pos (hzero.mp hd)]
  · have hd' : d'.coefficient ≠ 0 := fun h' => hd (hzero.mpr h')
    have hratio : d.toRatio.value = d'.toRatio.value := by rw [value_toRatio, value_toRatio, h]
    rw [if_neg hd, if_neg hd', size_eq hd, size_eq hd', h, Binary64.nearest_congr negative hratio]

theorem value_exact (coefficient : Nat) (exponent : Int) :
    (exact coefficient exponent).value = coefficient * (2 : Rat) ^ exponent := by
  cases exponent with
  | ofNat k =>
      simp only [exact, value, Int.ofNat_eq_natCast, zpow_natCast, zpow_zero]
      push_cast [Nat.pow_eq]
      ring
  | negSucc k =>
      have hten : (10 : Rat) ^ (k + 1) = 2 ^ (k + 1) * 5 ^ (k + 1) := by
        rw [← mul_pow]; norm_num
      simp only [exact, value, zpow_negSucc]
      push_cast [Nat.pow_eq]
      rw [hten]
      field_simp

/-- All numbers are far from the bounds beyond which decimals are not computed. -/
theorem size_bounds (hd : d.coefficient ≠ 0) (hlower : (2 : Rat) ^ (-1074 : Int) ≤ d.value)
    (hupper : d.value < (2 : Rat) ^ (1024 : Int)) : -330 ≤ d.size ∧ d.size ≤ 310 := by
  have hpos : 0 < d.value := lt_of_lt_of_le (zpow_pos two_pos _) hlower
  have hleastPower : 2 ^ 1074 ≤ 10 ^ 324 := by decide +kernel
  have hgreatestPower : 2 ^ 1024 < 10 ^ 309 := by decide +kernel
  have hleast : ((10 : Nat) : Rat) ^ (-324 : Int) ≤ d.value := by
    refine le_trans ?_ hlower
    rw [zpow_neg, zpow_neg]
    exact inv_anti₀ (zpow_pos two_pos _) (by exact_mod_cast hleastPower)
  have hgreatest : d.value < ((10 : Nat) : Rat) ^ (309 : Int) :=
    hupper.trans (by exact_mod_cast hgreatestPower)
  have hle := (Int.zpow_le_iff_le_log (by decide) hpos).mp hleast
  have hlt := (Int.lt_zpow_iff_log_lt (by decide) hpos).mp hgreatest
  rw [size_eq hd]
  omega

/-- The decimal with all digits of a number is read as that number. -/
theorem toFloat_exact {coefficient : Nat} {exponent : Int}
    (h : Binary64.Canonical coefficient exponent) (hzero : coefficient ≠ 0)
    (hexponent : exponent ≤ 971) :
    (exact coefficient exponent).toFloat false =
      Binary64.nearest false (Binary64.magnitude coefficient exponent) := by
  have hvalue := value_exact coefficient exponent
  have htwo : (2 : Rat) ≠ 0 := two_ne_zero
  have hone : (1 : Rat) ≤ coefficient := by exact_mod_cast Nat.one_le_iff_ne_zero.mpr hzero
  have hcoefficient : (coefficient : Rat) < 2 ^ (53 : Int) := by exact_mod_cast h.coefficient_lt
  have hlower : (2 : Rat) ^ (-1074 : Int) ≤ (exact coefficient exponent).value := by
    rw [hvalue]
    calc (2 : Rat) ^ (-1074 : Int) ≤ 2 ^ exponent := zpow_le_zpow_right₀ one_le_two h.least_le
      _ ≤ coefficient * 2 ^ exponent := le_mul_of_one_le_left (zpow_pos two_pos _).le hone
  have hupper : (exact coefficient exponent).value < (2 : Rat) ^ (1024 : Int) := by
    rw [hvalue]
    calc (coefficient : Rat) * 2 ^ exponent < 2 ^ (53 : Int) * 2 ^ exponent :=
          mul_lt_mul_of_pos_right hcoefficient (zpow_pos two_pos _)
      _ ≤ 2 ^ (53 : Int) * 2 ^ (971 : Int) := by
          have := zpow_le_zpow_right₀ (one_le_two (α := Rat)) hexponent
          gcongr
      _ = 2 ^ (1024 : Int) := by rw [← zpow_add₀ htwo]; rfl
  have hd : (exact coefficient exponent).coefficient ≠ 0 := by
    rw [← value_ne_zero_iff]
    exact (lt_of_lt_of_le (zpow_pos two_pos _) hlower).ne'
  obtain ⟨hleast, hgreatest⟩ := size_bounds hd hlower hupper
  have hratio : (exact coefficient exponent).toRatio.value =
      (Binary64.magnitude coefficient exponent).value := by
    rw [value_toRatio, hvalue, Binary64.value_magnitude]
  rw [toFloat, if_neg hd, if_neg (by omega), if_neg (by omega), Binary64.nearest_congr false hratio]

end Decimal

end Calculator
