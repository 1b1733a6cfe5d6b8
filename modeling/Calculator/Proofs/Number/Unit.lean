import Mathlib.Algebra.Ring.Int.Parity
import Calculator.Proofs.Number.Error
import Calculator.Proofs.Number.Negation

/-!
# `Proofs.Number.Unit` — one up and one down

A unit that is added to a number or taken from it can be lost in rounding. Up to the 53rd power of two it is
not, as there is a whole number within a unit of any number, on the side of zero. Beyond that power all
numbers are even, so that a sum or difference with one lies between two of them. It is rounded to a multiple
of four: on a grid of twos the half goes to the even coefficient, and coarser grids have no other multiples
of two. Hence the multiples of four lose the unit on both sides, and the other even numbers keep it on both.

## Contents

* `Binary64.IsRounded.abs_sub_le` — no number is nearer
* `Binary64.exists_rational_eq`, `Binary64.even_of_lt_abs` — whole numbers
* `Binary64.IsRounded.four_mul_of_odd` — odd values beyond all odd numbers
* `Binary64.LosesUnit`, `Binary64.sub_one_lt_add_one_iff` — where a unit up and a unit down are the same
-/

namespace Calculator.Binary64

/-- **The values at which a unit is lost**, up and down: multiples of four beyond the 53rd power of two. -/
def LosesUnit (value : Rat) : Prop := 2 ^ 53 < |value| ∧ ∃ m : Int, value = 4 * m

section

variable {x y z : Float} {value : Rat} {w : Int}

/-! ## The nearest number -/

/-- **No number is nearer** than the one that `IsRounded`, of whichever sign. -/
theorem IsRounded.abs_sub_le (h : IsRounded z value) (hz : z.isFinite = true) (hx : x.isFinite = true) :
    |rational z - value| ≤ |rational x - value| := by
  obtain ⟨negative, r, c, e, rfl, hrational, -, -, hnearest⟩ := h.spec hz
  obtain ⟨negative', c', e', hx⟩ := isFinite_iff_ofFloat.mp hx
  have hmagnitude : |rational x| = c' * 2 ^ e' := by
    rw [rational_of_ofFloat hx, abs_signedValue _ (by positivity)]
  calc |rational z - signedValue negative r.value| = |(c : Rat) * 2 ^ e - r.value| := by
        rw [hrational, abs_signedValue_sub]
    _ ≤ |(c' : Rat) * 2 ^ e' - r.value| := hnearest _ _ (ofFloat_eq_finite_iff.mp hx).1
    _ = |(|rational x| - |signedValue negative r.value|)| := by
        rw [hmagnitude, abs_signedValue _ r.value_nonneg]
    _ ≤ |rational x - signedValue negative r.value| := abs_abs_sub_abs_le _ _

/-! ## Whole numbers -/

/-- **Whole numbers** of no more than 53 bits are numbers: `rational` reaches them. -/
theorem exists_rational_eq (hlower : -2 ^ 53 < w) (hupper : w < 2 ^ 53) :
    ∃ x : Float, x.isFinite = true ∧ rational x = w := by
  obtain ⟨n, rfl | rfl⟩ := w.eq_nat_or_neg
  · obtain ⟨hfinite, hvalue⟩ := rational_ofNat (n := n) (by omega)
    exact ⟨ofNat n, hfinite, by rw [hvalue, Int.cast_natCast]⟩
  · obtain ⟨hfinite, hvalue⟩ := rational_ofNat (n := n) (by omega)
    refine ⟨-ofNat n, isFinite_neg hfinite, ?_⟩
    rw [rational_neg hfinite, hvalue, Int.cast_neg, Int.cast_natCast]

/-- A sign makes no difference to being a multiple. -/
theorem exists_signedValue_eq_mul (negative : Bool) (a : Rat) (n : Nat) :
    ∃ m : Int, signedValue negative (a * n) = a * m := by
  cases negative with
  | true => exact ⟨-n, by rw [Int.cast_neg, mul_neg]; rfl⟩
  | false => exact ⟨n, rfl⟩

/-- Beyond the 53rd power of two all numbers are even. -/
theorem even_of_lt_abs (hx : x.isFinite = true) (h : 2 ^ 53 < |rational x|) :
    ∃ j : Int, rational x = 2 * j := by
  obtain ⟨negative, c, e, hx⟩ := isFinite_iff_ofFloat.mp hx
  have hc : (c : Rat) < 2 ^ 53 := by exact_mod_cast (ofFloat_eq_finite_iff.mp hx).1.coefficient_lt
  rw [rational_of_ofFloat hx] at h ⊢
  rw [abs_signedValue _ (by positivity)] at h
  have he : 0 < e := by
    by_contra hle
    have hone : (2 : Rat) ^ e ≤ 1 := zpow_le_one_of_nonpos₀ one_le_two (not_lt.mp hle)
    have hsmall : (c : Rat) * 2 ^ e ≤ c := mul_le_of_le_one_right (Nat.cast_nonneg c) hone
    exact (h.trans_le hsmall).not_gt hc
  obtain ⟨k, rfl⟩ : ∃ k : Nat, e = k + 1 := ⟨(e - 1).toNat, by omega⟩
  have hsplit : (c : Rat) * 2 ^ ((k : Int) + 1) = 2 * (c * 2 ^ k : Nat) := by
    rw [zpow_add_one₀ two_ne_zero, zpow_natCast]
    push_cast
    ring
  rw [hsplit]
  exact exists_signedValue_eq_mul negative 2 _

/-- The middle between two natural numbers is rounded to the even one. -/
theorem even_round_of_odd {r : Ratio} {n : Nat} (h : r.value = n / 2) (hodd : Odd n) : Even r.round := by
  rcases r.round_spec with hnear | ⟨-, heven⟩
  · -- nothing is less than half a unit away from the middle
    have hapart : (1 : Rat) ≤ |(n : Rat) - (2 * r.round : Nat)| := by
      refine Ratio.one_le_abs_sub fun heq => ?_
      rw [heq] at hodd
      exact Nat.not_odd_iff_even.mpr (even_two_mul r.round) hodd
    have hdistance : |r.value - r.round| = |(n : Rat) - (2 * r.round : Nat)| / 2 := by
      rw [h, ← abs_two (α := Rat), ← abs_div, abs_two, Nat.cast_mul, Nat.cast_two, sub_div,
        mul_div_cancel_left₀ _ (two_ne_zero (α := Rat))]
    linarith
  · exact heven

/-- **Beyond the 53rd power of two, odd values are rounded to multiples of four** (`IsRounded`). On the grid
of twos an odd value is in the middle between two numbers. -/
theorem IsRounded.four_mul_of_odd (h : IsRounded z w) (hz : z.isFinite = true) (hodd : Odd w)
    (hlt : 2 ^ 53 < |(w : Rat)|) : ∃ m : Int, rational z = 4 * m := by
  have hne : (w : Rat) ≠ 0 := abs_pos.mp (lt_trans (by positivity) hlt)
  obtain ⟨negative, r, hvalue, hrational⟩ := h.on_grid hz hne
  have hr : r.value = (w.natAbs : Nat) := by
    rw [Nat.cast_natAbs, Int.cast_abs, ← hvalue, abs_signedValue _ r.value_nonneg]
  have hlog : 53 ≤ Int.log 2 r.value := by
    have hpos : 0 < r.value := by
      rw [hr, Nat.cast_natAbs, Int.cast_abs]
      exact abs_pos.mpr hne
    rw [← Int.zpow_le_iff_le_log (by decide) hpos, hr, Nat.cast_natAbs, Int.cast_abs]
    exact hlt.le
  have hgrid : 1 ≤ gridExponent r := by
    unfold gridExponent
    omega
  -- the rounded coefficient, times the unit of the grid, is a multiple of four
  obtain ⟨n, hn⟩ : ∃ n : Nat,
      ((r.scale2 (-gridExponent r)).round : Rat) * 2 ^ gridExponent r = 4 * n := by
    rcases hgrid.eq_or_lt with hone | hcoarse
    · have hhalf : (r.scale2 (-gridExponent r)).value = w.natAbs / 2 := by
        rw [Ratio.value_scale2, hr, ← hone, zpow_neg_one, div_eq_mul_inv]
      obtain ⟨a, ha⟩ := even_round_of_odd hhalf (Int.natAbs_odd.mpr hodd)
      refine ⟨a, ?_⟩
      rw [ha, ← hone, zpow_one]
      push_cast
      ring
    · obtain ⟨k, hk⟩ : ∃ k : Nat, gridExponent r = k + 2 := ⟨(gridExponent r - 2).toNat, by omega⟩
      refine ⟨(r.scale2 (-gridExponent r)).round * 2 ^ k, ?_⟩
      rw [hk, zpow_add₀ two_ne_zero, zpow_natCast]
      push_cast
      ring
  rw [hrational, hn]
  exact exists_signedValue_eq_mul negative 4 n

/-- Beside a whole number that is a number, such an odd value is not rounded to anything farther away. -/
theorem IsRounded.near_of_odd {v : Int} (h : IsRounded z w) (hz : z.isFinite = true)
    (hx : x.isFinite = true) (hv : rational x = v) (hunit : |v - w| = 1) (hodd : Odd w)
    (hlt : 2 ^ 53 < |w|) : ∃ m : Int, rational z = 4 * m ∧ |4 * m - w| ≤ 1 := by
  obtain ⟨m, hm⟩ := h.four_mul_of_odd hz hodd (by exact_mod_cast hlt)
  have hnear := h.abs_sub_le hz hx
  rw [hm, hv] at hnear
  have hle : |4 * m - w| ≤ |v - w| := by exact_mod_cast hnear
  exact ⟨m, hm, hle.trans_eq hunit⟩

/-! ## One up and one down -/

theorem isFinite_unit (hx : x.isFinite = true) :
    (x - 1).isFinite = true ∧ (x + 1).isFinite = true ∧ IsRounded (x - 1) (rational x - 1) ∧
      IsRounded (x + 1) (rational x + 1) := by
  have hbelow := isRounded_sub hx isFinite_one
  have habove := isRounded_add hx isFinite_one
  rw [rational_one] at hbelow habove
  exact ⟨hbelow.isFinite hx ((abs_sub _ _).trans_eq (by rw [abs_one])),
    habove.isFinite hx ((abs_add_le _ _).trans_eq (by rw [abs_one])), hbelow, habove⟩

/-- **Up to the 53rd power of two** a unit is told on the side of zero at least: `x - 1` is below `x + 1`. -/
theorem unit_of_abs_le (hx : x.isFinite = true) (h : |rational x| ≤ 2 ^ 53) :
    rational (x - 1) < rational (x + 1) := by
  obtain ⟨hfinite, hfinite', hbelow, habove⟩ := isFinite_unit hx
  obtain ⟨hlower, hupper⟩ := abs_le.mp h
  rcases le_or_gt 0 (rational x) with hnonneg | hneg
  · -- the whole number below
    have hceil := Int.ceil_lt_add_one (rational x)
    have hle := Int.le_ceil (rational x)
    have hfloor : 0 ≤ ⌈rational x⌉ := Int.ceil_nonneg hnonneg
    have htop : ⌈rational x⌉ ≤ 2 ^ 53 := Int.ceil_le.mpr (by exact_mod_cast hupper)
    obtain ⟨y, hy, hvalue⟩ := exists_rational_eq (w := ⌈rational x⌉ - 1) (by omega) (by omega)
    rw [Int.cast_sub, Int.cast_one] at hvalue
    calc rational (x - 1) ≤ rational y := hbelow.le_of_le hfinite hy (by linarith)
      _ < rational x := by linarith
      _ ≤ rational (x + 1) := habove.ge_of_ge hfinite' hx (by linarith)
  · -- the whole number above
    have hfloor := Int.lt_floor_add_one (rational x)
    have hle := Int.floor_le (rational x)
    have hceil : ⌊rational x⌋ < 0 := Int.floor_lt.mpr (by exact_mod_cast hneg)
    have hbottom : -2 ^ 53 ≤ ⌊rational x⌋ := Int.le_floor.mpr (by exact_mod_cast hlower)
    obtain ⟨y, hy, hvalue⟩ := exists_rational_eq (w := ⌊rational x⌋ + 1) (by omega) (by omega)
    rw [Int.cast_add, Int.cast_one] at hvalue
    calc rational (x - 1) ≤ rational x := hbelow.le_of_le hfinite hx (by linarith)
      _ < rational y := by linarith
      _ ≤ rational (x + 1) := habove.ge_of_ge hfinite' hy (by linarith)

/-- **Beyond the 53rd power of two** `x + 1` and `x - 1` are the multiples of four on either side, which are
`x` itself if it is one. -/
theorem unit_of_lt_abs (hx : x.isFinite = true) (h : 2 ^ 53 < |rational x|) :
    rational (x - 1) < rational (x + 1) ↔ ¬∃ m : Int, rational x = 4 * m := by
  obtain ⟨hfinite, hfinite', hbelow, habove⟩ := isFinite_unit hx
  obtain ⟨j, hj⟩ := even_of_lt_abs hx h
  have hvalue : rational x = (2 * j : Int) := by rw [hj, Int.cast_mul, Int.cast_ofNat]
  rw [hvalue] at hbelow habove h ⊢
  have hfar : (2 : Int) ^ 53 < |2 * j| := by exact_mod_cast h
  rw [lt_abs] at hfar
  obtain ⟨m, hm, hle⟩ : ∃ m : Int, rational (x - 1) = 4 * m ∧ |4 * m - (2 * j - 1)| ≤ 1 := by
    rw [← Int.cast_one, ← Int.cast_sub] at hbelow
    refine hbelow.near_of_odd hfinite hx hvalue (by rw [sub_sub_cancel, abs_one]) ?_ ?_
    · rw [← Int.not_even_iff_odd, Int.even_iff]
      omega
    · rw [lt_abs]
      omega
  obtain ⟨m', hm', hle'⟩ : ∃ m : Int, rational (x + 1) = 4 * m ∧ |4 * m - (2 * j + 1)| ≤ 1 := by
    rw [← Int.cast_one, ← Int.cast_add] at habove
    refine habove.near_of_odd hfinite' hx hvalue (by rw [sub_add_cancel_left, abs_neg, abs_one])
      (odd_two_mul_add_one j) ?_
    rw [lt_abs]
    omega
  rw [abs_le] at hle hle'
  rw [hm, hm']
  -- from here on it is about whole numbers
  norm_cast
  constructor
  · rintro hlt ⟨k, hk⟩
    omega
  · intro hnot
    have hself : 2 * j ≠ 4 * m := fun hk => hnot ⟨m, hk⟩
    have hself' : 2 * j ≠ 4 * m' := fun hk => hnot ⟨m', hk⟩
    omega

/-- **Where a unit is lost on both sides** (`LosesUnit`), and only there, `x + 1` is not above `x - 1`. -/
theorem sub_one_lt_add_one_iff (hx : x.isFinite = true) : x - 1 < x + 1 ↔ ¬LosesUnit (rational x) := by
  obtain ⟨hfinite, hfinite', -, -⟩ := isFinite_unit hx
  rw [lt_iff hfinite hfinite', LosesUnit]
  rcases le_or_gt |rational x| (2 ^ 53) with hle | hlt
  · exact iff_of_true (unit_of_abs_le hx hle) fun hloses => hle.not_gt hloses.1
  · rw [unit_of_lt_abs hx hlt]
    exact not_congr (and_iff_right hlt).symm

end

end Calculator.Binary64
