import Calculator.Proofs.Number.Arithmetic

/-!
# `Proofs.Number.Overflow` — where the numbers end

What is computed is rounded once, and what is beyond all numbers becomes infinite. The bound between the two
is half a unit above the greatest number. A value below it is nearer to that number than to the power of two
that comes next, and the bound itself is rounded to the even one of the two, which is the power. So from the
value alone it can be told whether the result is a number, and which of the two infinities it is if not.

## Contents

* `Binary64.overflow` — the bound
* `Binary64.nearestBits_lt_infinityBits_iff` — patterns
* `Binary64.IsRounded.isFinite_iff`, `Binary64.IsRounded.eq_infinity` — results
* `Binary64.isRounded_nearest_signed` — the nearest number of either sign
-/

namespace Calculator.Binary64

/-- **The least magnitude that is rounded to infinity** by `nearestBits`: half a unit above the greatest
number. -/
def overflow : Rat := (2 ^ 54 - 1) * 2 ^ 970

section

variable {z : Float} {value : Rat}

theorem overflow_pos : 0 < overflow := mul_pos (by norm_num) (pow_pos two_pos _)

/-- The power of two from which on there are no numbers, in halves of the last unit. -/
theorem endPower_eq : (2 : Rat) ^ (1024 : Int) = 2 ^ 54 * 2 ^ 970 := by
  rw [← pow_add, ← zpow_natCast]
  rfl

/-- The next power of two is beyond the bound. -/
theorem overflow_lt : overflow < 2 ^ (1024 : Int) := by
  rw [endPower_eq, overflow]
  exact mul_lt_mul_of_pos_right (sub_one_lt _) (pow_pos two_pos _)

/-! ## Patterns -/

/-- **Magnitudes below `overflow` have the pattern of a number.** -/
theorem nearestBits_lt_infinityBits_iff (r : Ratio) :
    nearestBits r < infinityBits ↔ r.value < overflow := by
  constructor
  · intro hlt
    by_contra hge
    have hbound : (magnitude (2 ^ 54 - 1) 970).value = overflow := by
      rw [value_magnitude, overflow, Nat.cast_sub (by decide), Nat.cast_pow, Nat.cast_two, Nat.cast_one,
        ← zpow_natCast (2 : Rat) 970]
      rfl
    have hinfinite : nearestBits (magnitude (2 ^ 54 - 1) 970) = infinityBits := by decide +kernel
    have hmono := nearestBits_mono (hbound.trans_le (not_lt.mp hge))
    exact hlt.not_ge (hinfinite.symm.trans_le hmono)
  · intro hlt
    obtain ⟨c, e, hcanonical, hbits, hnearest⟩ := exists_nearest r
    -- the greatest number competes, and the value is on its side of the middle
    have hgreatest : Canonical (2 ^ 53 - 1) 971 := ⟨by decide, by decide, .inr (by decide)⟩
    have hcloser := hnearest _ _ hgreatest
    have hvalue : ((2 ^ 53 - 1 : Nat) : Rat) * 2 ^ (971 : Int) = (2 ^ 54 - 2) * 2 ^ 970 := by
      rw [show (971 : Int) = (970 : Nat) + 1 from rfl, zpow_add_one₀ two_ne_zero, zpow_natCast]
      generalize (2 : Rat) ^ 970 = unit
      norm_num
      ring
    have hfinite : (c : Rat) * 2 ^ e < 2 ^ (1024 : Int) := by
      have hunit : (0 : Rat) < 2 ^ 970 := pow_pos two_pos _
      have hself := le_abs_self ((c : Rat) * 2 ^ e - r.value)
      rw [hvalue] at hcloser
      rw [endPower_eq]
      unfold overflow at hlt
      clear hvalue
      generalize (2 : Rat) ^ 970 = unit at *
      rcases abs_cases (((2 : Rat) ^ 54 - 2) * unit - r.value) with ⟨habs, -⟩ | ⟨habs, -⟩
      · linarith
      · linarith
    have hbelow := hcanonical.lt_infinityBits_iff.mpr hfinite
    rwa [hbits, min_eq_left hbelow.le]

/-! ## Results -/

/-- The number that is found for a magnitude and a sign is the value correctly rounded. -/
theorem isRounded_nearest_signed (negative : Bool) (r : Ratio) :
    IsRounded (nearest negative r) (signedValue negative r.value) :=
  ⟨negative, r, rfl, toNat_toBits_ofBits_signed (nearestBits_le r) negative⟩

/-- **A result is a number** if and only if the value is below `overflow`. -/
theorem IsRounded.isFinite_iff (h : IsRounded z value) : z.isFinite = true ↔ |value| < overflow := by
  constructor
  · intro hz
    obtain ⟨negative, r, c, e, rfl, -, -, hlt, hlow⟩ := h.ofFloat_spec hz
    rw [abs_signedValue _ r.value_nonneg, ← nearestBits_lt_infinityBits_iff, hlow]
    exact hlt
  · intro hlt
    obtain ⟨negative, r, rfl, hpattern⟩ := h
    rw [abs_signedValue _ r.value_nonneg, ← nearestBits_lt_infinityBits_iff] at hlt
    obtain ⟨c, e, hcanonical, hbits, -⟩ := exists_nearest r
    have hbelow : unsignedBits c e < infinityBits := by omega
    have hz : ofFloat z = .finite negative c e :=
      ofFloat_eq_finite_iff.mpr
        ⟨hcanonical, hcanonical.le_of_unsignedBits_lt hbelow, by rw [hpattern, hbits, min_eq_left hbelow.le]⟩
    exact isFinite_of_ofFloat hz

/-- What has a magnitude has its sign. -/
theorem decide_signedValue_neg (h : 0 < value) (negative : Bool) :
    decide (signedValue negative value < 0) = negative := by
  cases negative with
  | true => exact decide_eq_true (neg_neg_of_pos h)
  | false => exact decide_eq_false (not_lt.mpr h.le)

/-- **From `overflow` on** it is the `infinity` of the sign that the value has. -/
theorem IsRounded.eq_infinity (h : IsRounded z value) (hvalue : overflow ≤ |value|) :
    z = infinity (decide (value < 0)) := by
  obtain ⟨negative, r, rfl, hpattern⟩ := h
  rw [abs_signedValue _ r.value_nonneg] at hvalue
  have hbits : nearestBits r = infinityBits :=
    le_antisymm (nearestBits_le r) (not_lt.mp ((nearestBits_lt_infinityBits_iff r).not.mpr hvalue.not_gt))
  rw [decide_signedValue_neg (overflow_pos.trans_le hvalue)]
  refine Float.toBits_inj.mp (UInt64.toNat_inj.mp (hpattern.trans ?_))
  rw [hbits]
  exact (toNat_toBits_ofBits_signed le_rfl negative).symm

end

end Calculator.Binary64
