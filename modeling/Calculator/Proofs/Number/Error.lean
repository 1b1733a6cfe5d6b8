import Calculator.Proofs.Number.Arithmetic

/-!
# `Proofs.Number.Error` — how far a rounded number is off

A value that is rounded on its grid is off by half a unit of the last place, which is a fixed part of the
value itself unless the grid is the finest one. Whichever grid it is, the sum of both bounds is a bound, and
it needs no case of its own where a result is as small as the numbers get.

Natural numbers of up to as many bits as a number has are not rounded at all.

## Contents

* `Binary64.roundoff`, `Binary64.underflow`, `Binary64.IsRounded.error_le` — the bound
* `Binary64.rational_ofNat` — natural numbers
* `Binary64.eq_of_rational_eq`, `Binary64.eq_zero_or_of_rational_eq` — numbers from their values
-/

open Float.Model (Format UnpackedFloat)

namespace Calculator.Binary64

/-- The part of itself that a value is rounded by at most. -/
def roundoff : Rat := 2 ^ (-53 : Int)

/-- Half of the least number. -/
def underflow : Rat := 2 ^ (-1075 : Int)

theorem roundoff_pos : 0 < roundoff := zpow_pos two_pos _

theorem underflow_pos : 0 < underflow := zpow_pos two_pos _

section

variable {r : Ratio} {coefficient n : Nat} {exponent : Int} {x y z : Float} {value : Rat}

/-! ## The bound -/

/-- Half a unit of the grid is within the bound. -/
theorem half_grid_le (h : r.num ≠ 0) : 1 / 2 * 2 ^ gridExponent r ≤ roundoff * r.value + underflow := by
  have hvalue : 0 < r.value := Ratio.value_pos_iff.mpr h
  have hhalf : ∀ k : Int, (1 / 2 : Rat) * 2 ^ k = 2 ^ (k - 1) := by
    intro k
    rw [zpow_sub_one₀ two_ne_zero, one_div, mul_comm]
  rw [hhalf]
  by_cases hgrid : gridExponent r = leastExponent
  · rw [hgrid]
    exact le_add_of_nonneg_left (mul_nonneg roundoff_pos.le hvalue.le)
  · -- the leading bit of the value is as many places above the grid as a number has bits behind it
    have hlog : gridExponent r = Int.log 2 r.value - 52 := by
      unfold gridExponent at hgrid ⊢
      omega
    have hleading : (2 : Rat) ^ Int.log 2 r.value ≤ r.value := by
      exact_mod_cast Int.zpow_log_le_self (b := 2) (by decide) hvalue
    calc (2 : Rat) ^ (gridExponent r - 1) = roundoff * 2 ^ Int.log 2 r.value := by
          rw [roundoff, ← zpow_add₀ two_ne_zero, hlog]
          exact congrArg _ (by ring)
      _ ≤ roundoff * r.value := mul_le_mul_of_nonneg_left hleading roundoff_pos.le
      _ ≤ roundoff * r.value + underflow := le_add_of_nonneg_right underflow_pos.le

theorem Nearest.error_le (h : Nearest coefficient exponent r.value) :
    |(coefficient : Rat) * 2 ^ exponent - r.value| ≤ roundoff * r.value + underflow := by
  by_cases hnum : r.num = 0
  · have hvalue : r.value = 0 := by rw [Ratio.value, hnum, Nat.cast_zero, zero_div]
    have hzero := h 0 leastExponent canonical_zero
    rw [hvalue, Nat.cast_zero, zero_mul, sub_zero, sub_zero, abs_zero] at hzero
    rw [hvalue, sub_zero, mul_zero, zero_add]
    exact hzero.trans underflow_pos.le
  · -- the number that rounding on the grid leads to competes
    obtain ⟨hcanonical, -, hvalue⟩ := carried_round_spec hnum
    refine (h _ _ hcanonical).trans (le_trans ?_ (half_grid_le hnum))
    have hpower : (0 : Rat) < 2 ^ gridExponent r := zpow_pos two_pos _
    have hscaled : r.value = (r.scale2 (-gridExponent r)).value * 2 ^ gridExponent r := by
      rw [Ratio.value_scale2, mul_assoc, ← zpow_add₀ two_ne_zero, neg_add_cancel, zpow_zero, mul_one]
    have hround := (r.scale2 (-gridExponent r)).abs_round_le_half
    rw [abs_sub_comm] at hround
    calc |((carried (r.scale2 (-gridExponent r)).round (gridExponent r)).1 : Rat) *
            2 ^ (carried (r.scale2 (-gridExponent r)).round (gridExponent r)).2 - r.value|
        = |((r.scale2 (-gridExponent r)).round : Rat) - (r.scale2 (-gridExponent r)).value| *
            2 ^ gridExponent r := by
          rw [hvalue, hscaled, ← sub_mul, abs_mul, abs_of_pos hpower]
      _ ≤ 1 / 2 * 2 ^ gridExponent r := mul_le_mul_of_nonneg_right hround hpower.le

/-- **How far a rounded number is off**: by no more than `roundoff` of its value, and `underflow`. -/
theorem IsRounded.error_le (h : IsRounded z value) (hz : z.isFinite = true) :
    |rational z - value| ≤ roundoff * |value| + underflow := by
  obtain ⟨negative, r, c, e, rfl, hrational, -, -, hnearest⟩ := h.spec hz
  rw [hrational, abs_signedValue _ r.value_nonneg, abs_signedValue_sub]
  exact hnearest.error_le

/-- What is rounded from a value that is not negative exceeds it by no more than the bound. -/
theorem IsRounded.le_of_nonneg (h : IsRounded z value) (hz : z.isFinite = true) (hvalue : 0 ≤ value) :
    rational z ≤ value * (1 + roundoff) + underflow := by
  have hle := (abs_le.mp (h.error_le hz)).2
  rw [abs_of_nonneg hvalue] at hle
  linarith

/-! ## Natural numbers -/

/-- A natural number of no more than 53 bits has a normal form. -/
theorem exists_canonical (hne : n ≠ 0) (hlt : n < 2 ^ 53) :
    ∃ coefficient exponent, Canonical coefficient exponent ∧ exponent ≤ 0 ∧
      (coefficient : Rat) * 2 ^ exponent = n := by
  have hlog : n.log2 < 53 := (Nat.log2_lt hne).mpr hlt
  have hself := Nat.log2_self_le hne
  have hnext : n < 2 ^ (n.log2 + 1) := Nat.lt_log2_self
  -- the leading bit is moved to the place that it has in a normal form
  have hmoved : ∀ k, 2 ^ k * 2 ^ (52 - n.log2) = 2 ^ (k + (52 - n.log2)) := fun k => (pow_add 2 k _).symm
  refine ⟨n * 2 ^ (52 - n.log2), -((52 - n.log2 : Nat) : Int), ⟨?_, ?_, .inr ?_⟩, by omega, ?_⟩
  · calc n * 2 ^ (52 - n.log2) < 2 ^ (n.log2 + 1) * 2 ^ (52 - n.log2) :=
          Nat.mul_lt_mul_of_pos_right hnext (by positivity)
      _ = 2 ^ 53 := by
          rw [hmoved]
          exact congrArg _ (by omega)
  · rw [show leastExponent = -1074 from rfl]
    omega
  · calc 2 ^ 52 = 2 ^ n.log2 * 2 ^ (52 - n.log2) := by
          rw [hmoved]
          exact congrArg _ (by omega)
      _ ≤ n * 2 ^ (52 - n.log2) := Nat.mul_le_mul_right _ hself
  · rw [zpow_neg, zpow_natCast, Nat.cast_mul, Nat.cast_pow, Nat.cast_two, mul_assoc,
      mul_inv_cancel₀ (by positivity), mul_one]

/-- **Natural numbers** of no more than 53 bits are exact: `rational` gives them back. -/
theorem rational_ofNat (h : n < 2 ^ 53) : (ofNat n).isFinite = true ∧ rational (ofNat n) = n := by
  have hrounded := isRounded_ofNat n
  by_cases hzero : n = 0
  · have hn : (n : Rat) = rational 0 := by rw [hzero, Nat.cast_zero, rational_zero]
    have hfinite : (ofNat n).isFinite = true := by
      refine hrounded.isFinite isFinite_zero ?_
      rw [hn, rational_zero, abs_zero]
      norm_num
    rw [hn] at hrounded ⊢
    exact ⟨hfinite, le_antisymm (hrounded.le_of_le hfinite isFinite_zero le_rfl)
      (hrounded.ge_of_ge hfinite isFinite_zero le_rfl)⟩
  · obtain ⟨c, e, hcanonical, hle, hvalue⟩ := exists_canonical hzero h
    obtain ⟨x, hx⟩ := hcanonical.exists_ofFloat (by omega)
    have hfinite := isFinite_of_ofFloat hx
    have hn : (n : Rat) = rational x := (rational_of_ofFloat hx).symm ▸ hvalue.symm
    rw [hn] at hrounded ⊢
    have hz := hrounded.isFinite hfinite (le_add_of_nonneg_right zero_le_one)
    exact ⟨hz, le_antisymm (hrounded.le_of_le hz hfinite le_rfl) (hrounded.ge_of_ge hz hfinite le_rfl)⟩

/-- Natural numbers that are beyond all numbers are infinite. -/
theorem ofNat_cases (n : Nat) : (ofNat n).isFinite = true ∨ ofNat n = infinity false := by
  have hbits : (ofNat n).toBits.toNat = nearestBits (Ratio.ofNat n) := toNat_toBits_nearest _
  rcases ofFloat_of_le (hbits.trans_le (nearestBits_le _)) with hinfinite | ⟨c, e, hfinite⟩
  · right
    exact eq_infinity hinfinite
  · exact .inl (isFinite_of_ofFloat hfinite)

/-- Divided by infinity, a number is zero. -/
theorem isRounded_div_infinity (hx : x.isFinite = true) : IsRounded (x / infinity false) 0 := by
  have hinfinity : (infinity false).toModel.unpack = .infinity .positive := rfl
  obtain ⟨negative, c, e, hx⟩ := isFinite_iff_ofFloat.mp hx
  have hpack : pattern (x / infinity false) = UnpackedFloat.pack Format.binary64
      (UnpackedFloat.div Format.binary64 x.toModel.unpack (infinity false).toModel.unpack) := rfl
  rw [hinfinity, unpack_eq hx, unpacked] at hpack
  by_cases hzero : c = 0
  · rw [dif_pos hzero] at hpack
    exact (roundsTo_zero _).isRounded hpack
  · rw [dif_neg hzero] at hpack
    exact (roundsTo_zero _).isRounded hpack

/-! ## Numbers from their values -/

theorem eq_of_ofFloat {negative : Bool} (hx : ofFloat x = .finite negative coefficient exponent)
    (hy : ofFloat y = .finite negative coefficient exponent) : x = y := by
  obtain ⟨-, -, hbits⟩ := ofFloat_eq_finite_iff.mp hx
  obtain ⟨-, -, hbits'⟩ := ofFloat_eq_finite_iff.mp hy
  exact Float.toBits_inj.mp (UInt64.toNat_inj.mp (hbits.trans hbits'.symm))

/-- Numbers of one value are the same, unless they are zero. -/
theorem eq_of_rational_eq (hx : x.isFinite = true) (hy : y.isFinite = true) (hne : rational x ≠ 0)
    (h : rational x = rational y) : x = y := by
  obtain ⟨negative, c, e, hx⟩ := isFinite_iff_ofFloat.mp hx
  obtain ⟨negative', c', e', hy⟩ := isFinite_iff_ofFloat.mp hy
  obtain ⟨hc, -, -⟩ := ofFloat_eq_finite_iff.mp hx
  obtain ⟨hc', -, -⟩ := ofFloat_eq_finite_iff.mp hy
  rw [rational_of_ofFloat hx] at h hne
  rw [rational_of_ofFloat hy] at h
  have hpos : ∀ {negative : Bool} {c : Nat} {e : Int},
      signedValue negative (c * 2 ^ e) ≠ 0 → (0 : Rat) < c * 2 ^ e := by
    intro negative c e hne
    have hnonneg : (0 : Rat) ≤ c * 2 ^ e := by positivity
    refine hnonneg.lt_of_ne fun hzero => hne ?_
    rw [← hzero, signedValue_zero]
  obtain ⟨rfl, hmagnitude⟩ := signedValue_inj (hpos hne) (hpos (h ▸ hne)) h
  obtain ⟨rfl, rfl⟩ := hc.unsignedBits_inj hc'
    (le_antisymm ((hc.unsignedBits_le_iff hc').mpr hmagnitude.le)
      ((hc'.unsignedBits_le_iff hc).mpr hmagnitude.ge))
  exact eq_of_ofFloat hx hy

/-- A number of value zero is one of two. -/
theorem eq_zero_or_of_rational_eq (hx : x.isFinite = true) (h : rational x = 0) : x = 0 ∨ x = -0 := by
  have hpositive : ofFloat 0 = .finite false 0 leastExponent := rfl
  have hnegative : ofFloat (-0) = .finite true 0 leastExponent := rfl
  obtain ⟨negative, c, e, hx⟩ := isFinite_iff_ofFloat.mp hx
  obtain ⟨hc, -, -⟩ := ofFloat_eq_finite_iff.mp hx
  have hzero : c = 0 := by
    by_contra hne
    rw [rational_of_ofFloat hx] at h
    have hmagnitude := congrArg abs h
    rw [abs_signedValue _ (value_pos hne e).le, abs_zero] at hmagnitude
    exact (value_pos hne e).ne' hmagnitude
  subst hzero
  obtain rfl : e = leastExponent := hc.normal.resolve_right (by omega)
  cases negative with
  | true => exact .inr (eq_of_ofFloat hx hnegative)
  | false => exact .inl (eq_of_ofFloat hx hpositive)

end

end Calculator.Binary64
