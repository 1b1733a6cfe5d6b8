import Calculator.Proofs.Number.Order

/-!
# `Proofs.Number.Rounding` — the model of numbers rounds correctly

The model computes with coefficients of any length, shifts them right while it keeps two bits of what is
lost, rounds, and shifts once more if rounding has carried. What comes out is what rounding the exact value
on its grid gives, which is the nearest number. As all numbers compete, no number that is below the exact
value is above the rounded one, or the other way round.

## Contents

* `Binary64.Represents` — a coefficient with its two bits, and what it stands for
* `Binary64.roundWithAccuracy_eq` — rounding on the grid
* `Binary64.RoundsTo`, `Binary64.IsRounded` — a value correctly rounded, in the model and as a pattern
* `Binary64.IsRounded.mono`, `Binary64.IsRounded.le_of_le`, `Binary64.IsRounded.ge_of_ge` — order
* `Binary64.IsRounded.isFinite`, `Binary64.IsRounded.bounded` — where nothing overflows
-/

open Float.Model Float.Model.UnpackedFloat

namespace Calculator.Binary64

/-- **What a coefficient stands for** with the first bit that is lost (`roundBit`) and whether any other is
(`stickyBit`). -/
def Represents (extended : ExtendedMantissa) (value : Rat) : Prop :=
  match extended.roundBit, extended.stickyBit with
  | false, false => value = extended.mantissa
  | false, true => (extended.mantissa : Rat) < value ∧ value < extended.mantissa + 1 / 2
  | true, false => value = extended.mantissa + 1 / 2
  | true, true => (extended.mantissa : Rat) + 1 / 2 < value ∧ value < extended.mantissa + 1

section

variable {extended : ExtendedMantissa} {value : Rat} {r : Ratio} {coefficient : Nat} {exponent : Int}
  {accuracy : Accuracy} {negative : Bool}

/-! ## Two bits of what is lost -/

theorem represents_exact (coefficient : Nat) :
    Represents (.ofMantissaAndAccuracy coefficient .exact) coefficient := rfl

theorem Represents.bounds (h : Represents extended value) :
    (extended.mantissa : Rat) ≤ value ∧ value < extended.mantissa + 1 := by
  obtain ⟨mantissa, roundBit, stickyBit⟩ := extended
  cases roundBit <;> cases stickyBit <;> simp only [Represents] at h ⊢
  · constructor <;> linarith
  · constructor <;> linarith
  · constructor <;> linarith
  · constructor <;> linarith

/-- Shifting right by one bit halves the value and loses nothing. -/
theorem Represents.shiftRightOne (h : Represents extended value) :
    Represents extended.shiftRightOne (value / 2) := by
  obtain ⟨mantissa, roundBit, stickyBit⟩ := extended
  have hsplit : ((mantissa / 2 : Nat) : Rat) * 2 + ((mantissa % 2 : Nat) : Rat) = mantissa := by
    exact_mod_cast Nat.div_add_mod' mantissa 2
  unfold ExtendedMantissa.shiftRightOne
  rcases Nat.mod_two_eq_zero_or_one mantissa with heven | hodd
  · rw [heven, Nat.cast_zero, add_zero] at hsplit
    cases roundBit <;> cases stickyBit <;> simp only [Represents, heven] at h ⊢ <;>
      simp only [bne_self_eq_false, Bool.or_false, Bool.or_true, Bool.or_self] <;>
      (try constructor) <;> linarith
  · rw [hodd, Nat.cast_one] at hsplit
    have hbit : ((1 : Nat) != 0) = true := rfl
    cases roundBit <;> cases stickyBit <;> simp only [Represents, hodd, hbit] at h ⊢ <;>
      simp only [Bool.or_false, Bool.or_true, Bool.or_self] <;>
      (try constructor) <;> linarith

theorem Represents.shiftRight (h : Represents extended value) (n : Nat) :
    Represents (extended >>> n) (value / 2 ^ n) := by
  show Represents (n.repeat ExtendedMantissa.shiftRightOne extended) _
  induction n with
  | zero =>
      rw [pow_zero, div_one]
      exact h
  | succ n ih =>
      rw [Nat.repeat, pow_succ, ← div_div]
      exact ih.shiftRightOne

/-- The two bits are enough to round. -/
theorem Represents.roundedMantissa_eq (h : Represents extended r.value) :
    extended.roundedMantissa = r.round := by
  obtain ⟨mantissa, roundBit, stickyBit⟩ := extended
  refine (Ratio.round_eq_iff.mpr ?_).symm
  cases roundBit <;> cases stickyBit <;> simp only [Represents] at h <;>
    simp only [ExtendedMantissa.roundedMantissa, ExtendedMantissa.accuracy,
      Accuracy.roundToNearestEven]
  · left
    rw [h, sub_self, abs_zero]
    norm_num
  · left
    rw [abs_lt]
    constructor <;> linarith
  · right
    rw [h]
    rcases Nat.mod_two_eq_zero_or_one mantissa with heven | hodd
    · rw [heven, Nat.add_zero, add_sub_cancel_left]
      exact ⟨abs_of_pos (by norm_num), Nat.even_iff.mpr heven⟩
    · rw [hodd]
      refine ⟨?_, Nat.even_iff.mpr (by omega)⟩
      push_cast
      rw [show (mantissa : Rat) + 1 / 2 - (mantissa + 1) = -(1 / 2) by ring, abs_neg]
      exact abs_of_pos (by norm_num)
  · left
    push_cast
    rw [abs_lt]
    constructor <;> linarith

/-! ## Rounding on the grid -/

theorem targetExponent_eq (total : Int) :
    Format.binary64.targetExponent total = max (total - 53) leastExponent := rfl

/-- The model shifts to the grid of the fraction, as far as the coefficient can tell. -/
theorem targetExponent_eq_gridExponent (h : r.num ≠ 0)
    (hlower : (coefficient : Rat) ≤ r.value / 2 ^ exponent)
    (hupper : r.value / 2 ^ exponent < coefficient + 1) (hle : exponent ≤ gridExponent r) :
    Format.binary64.targetExponent (totalExponent coefficient exponent) = gridExponent r := by
  have hpower : (0 : Rat) < 2 ^ exponent := zpow_pos two_pos _
  rw [le_div_iff₀ hpower] at hlower
  rw [div_lt_iff₀ hpower] at hupper
  rw [targetExponent_eq]
  unfold totalExponent gridExponent at *
  by_cases hzero : coefficient = 0
  · -- the fraction is less than a unit, and both grids are the finest one
    have hlog : Int.log 2 r.value < exponent := by
      refine (Int.lt_zpow_iff_log_lt (b := 2) (by decide) (Ratio.value_pos_iff.mpr h)).mp ?_
      rw [hzero, Nat.cast_zero, zero_add, one_mul] at hupper
      exact_mod_cast hupper
    have hlog2 : Nat.log2 0 = 0 := by decide
    rw [hzero, hlog2]
    omega
  · have hlog : Int.log 2 r.value = coefficient.log2 + exponent := by
      refine intLog_eq_of_bounds (by decide) ?_ ?_
      · have hself : (2 : Rat) ^ (coefficient.log2 : Int) ≤ coefficient := by
          exact_mod_cast Nat.log2_self_le hzero
        push_cast
        rw [zpow_add₀ two_ne_zero]
        exact (mul_le_mul_of_nonneg_right hself hpower.le).trans hlower
      · have hself : (coefficient : Rat) + 1 ≤ 2 ^ ((coefficient.log2 : Int) + 1) := by
          exact_mod_cast Nat.lt_log2_self (n := coefficient)
        push_cast
        rw [add_right_comm, zpow_add₀ two_ne_zero]
        exact hupper.trans_le (mul_le_mul_of_nonneg_right hself hpower.le)
    rw [hlog]
    omega

/-- The second shift carries what rounding has led to, and nothing else. -/
theorem shift_carried {rounded : Nat} {grid : Int} (hle : rounded ≤ 2 ^ 53)
    (hleast : leastExponent ≤ grid) :
    (shiftToTargetExponent Format.binary64 rounded grid .exact).1.mantissa = (carried rounded grid).1 ∧
      (shiftToTargetExponent Format.binary64 rounded grid .exact).2 = (carried rounded grid).2 := by
  unfold shiftToTargetExponent shiftToExponent carried
  rw [targetExponent_eq]
  unfold totalExponent
  rcases hle.lt_or_eq with hlt | rfl
  · have hlog : rounded.log2 + 1 ≤ 53 := by
      by_cases hzero : rounded = 0
      · rw [hzero]
        decide
      · exact (Nat.log2_lt hzero).mpr hlt
    have hamount : (max ((rounded.log2 : Int) + 1 + grid - 53) leastExponent - grid).toNat = 0 := by
      omega
    rw [if_pos hlt]
    simp only [hamount]
    exact ⟨rfl, add_zero grid⟩
  · have hlog : (2 ^ 53 : Nat).log2 = 53 := Nat.log2_two_pow
    have hamount : (max (((53 : Nat) : Int) + 1 + grid - 53) leastExponent - grid).toNat = 1 := by
      omega
    rw [if_neg (lt_irrefl _), hlog]
    simp only [hamount]
    exact ⟨rfl, rfl⟩

/-- **Rounding on the grid**: what `roundWithAccuracy` makes of a coefficient is what `Ratio.round` makes of
the fraction. -/
theorem roundWithAccuracy_eq (h : r.num ≠ 0)
    (hrepresents : Represents (.ofMantissaAndAccuracy coefficient accuracy) (r.value / 2 ^ exponent))
    (hle : exponent ≤ gridExponent r) (negative : Bool) :
    let rounded := carried (r.scale2 (-gridExponent r)).round (gridExponent r)
    roundWithAccuracy Format.binary64 (modelSign negative) coefficient exponent accuracy =
      unpacked negative rounded.1 rounded.2 := by
  have hmantissa : (ExtendedMantissa.ofMantissaAndAccuracy coefficient accuracy).mantissa =
      coefficient := by
    unfold ExtendedMantissa.ofMantissaAndAccuracy
    split <;> rfl
  obtain ⟨hlower, hupper⟩ := hrepresents.bounds
  rw [hmantissa] at hlower hupper
  have htarget := targetExponent_eq_gridExponent h hlower hupper hle
  -- the first shift leads to the grid
  have hexponent : exponent + ((gridExponent r - exponent).toNat : Int) = gridExponent r := by omega
  have hshifted := hrepresents.shiftRight (gridExponent r - exponent).toNat
  have hvalue : r.value / 2 ^ exponent / 2 ^ (gridExponent r - exponent).toNat =
      (r.scale2 (-gridExponent r)).value := by
    rw [Ratio.value_scale2, div_div, ← zpow_natCast, ← zpow_add₀ two_ne_zero, hexponent, zpow_neg,
      div_eq_mul_inv]
  rw [hvalue] at hshifted
  have hrounded := hshifted.roundedMantissa_eq
  obtain ⟨hfinal, hfinalExponent⟩ :=
    shift_carried (Ratio.round_le_of_le (scaled_lt r).le) (leastExponent_le_gridExponent r)
  intro rounded
  unfold roundWithAccuracy
  have hfirst : shiftToTargetExponent Format.binary64 coefficient exponent accuracy =
      ((ExtendedMantissa.ofMantissaAndAccuracy coefficient accuracy) >>>
        (gridExponent r - exponent).toNat, gridExponent r) := by
    unfold shiftToTargetExponent shiftToExponent
    rw [htarget]
    exact Prod.ext rfl hexponent
  simp only [hfirst, hrounded, hfinal, hfinalExponent]
  rfl

/-! ## Patterns -/

theorem toNat_modelSign (negative : Bool) :
    (modelSign negative).toBitVec.toNat * 2 ^ 63 = signBits negative := by
  cases negative <;> rfl

/-- What the model puts together has the pattern that sign, coefficient and exponent make up. -/
theorem toNat_pack_unpacked (h : Canonical coefficient exponent) (negative : Bool) :
    (UnpackedFloat.pack Format.binary64 (unpacked negative coefficient exponent)).toNat =
      signBits negative + min (unsignedBits coefficient exponent) infinityBits := by
  have hlt := h.coefficient_lt
  have hge := h.least_le
  have hnormal := h.normal
  have hleast : leastExponent = -1074 := rfl
  unfold unpacked unsignedBits
  by_cases hzero : coefficient = 0
  · have hexponent : exponent = leastExponent := hnormal.resolve_right (by omega)
    have hpack : UnpackedFloat.pack Format.binary64 (.zero (modelSign negative)) =
        packComponents Format.binary64 (modelSign negative) 0#11 0#52 := rfl
    rw [dif_pos hzero, hpack, toNat_packComponents, toNat_modelSign, hzero, hexponent, infinityBits_eq]
    simp
  · rw [dif_neg hzero, infinityBits_eq]
    unfold UnpackedFloat.pack
    simp only
    have hbias : (exponent + (Format.binary64.exponentBias : Nat) + (52 : Nat)).toNat =
        (exponent + 1075).toNat := by
      rw [show Format.binary64.exponentBias = 1023 from rfl]
      omega
    rw [hbias]
    by_cases hinfinite : 2 ^ 11 ≤ (exponent + 1075).toNat + 1
    · have hones : (-1#11).toNat = 2047 := rfl
      have hclear : (0 : BitVec 52).toNat = 0 := rfl
      rw [if_pos hinfinite, packedInfinity, toNat_packComponents, toNat_modelSign, hones, hclear]
      omega
    · rw [if_neg hinfinite]
      by_cases hleading : 2 ^ 52 ≤ coefficient
      · have hlog : coefficient.log2 = 52 := by
          rw [Nat.log2_eq_iff hzero]
          omega
        rw [if_pos (by rw [hlog]; rfl), toNat_packComponents, toNat_modelSign, BitVec.toNat_ofNat,
          BitVec.toNat_ofNat]
        omega
      · have hlog : coefficient.log2 < 52 := (Nat.log2_lt hzero).mpr (by omega)
        have hbits : ¬coefficient.log2 + 1 = Format.binary64.mantissaBits := by
          rw [show Format.binary64.mantissaBits = 53 from rfl]
          omega
        rw [if_neg hbits, toNat_packComponents, toNat_modelSign, BitVec.toNat_ofNat,
          BitVec.toNat_ofNat]
        omega

end

/-! ## Correct rounding -/

/-- **A number is a value correctly rounded**: it has the sign of the value and the pattern `nearestBits` of
its magnitude. Zero may have either sign. -/
def IsRounded (z : Float) (value : Rat) : Prop :=
  ∃ negative r, signedValue negative r.value = value ∧
    z.toBits.toNat = signBits negative + nearestBits r

/-- The same before the pattern is put together. -/
def RoundsTo (z : UnpackedFloat) (value : Rat) : Prop :=
  ∃ negative r coefficient exponent, signedValue negative r.value = value ∧
    Canonical coefficient exponent ∧ z = unpacked negative coefficient exponent ∧
    nearestBits r = min (unsignedBits coefficient exponent) infinityBits

section

variable {x y z : Float} {value value' : Rat} {coefficient coefficient' : Nat}
  {exponent exponent' : Int} {negative negative' : Bool} {model : UnpackedFloat}

theorem RoundsTo.isRounded (h : RoundsTo model value)
    (hz : pattern z = UnpackedFloat.pack Format.binary64 model) : IsRounded z value := by
  obtain ⟨negative, r, coefficient, exponent, hvalue, hcanonical, rfl, hbits⟩ := h
  refine ⟨negative, r, hvalue, ?_⟩
  rw [← toNat_pattern, hz, toNat_pack_unpacked hcanonical, hbits]

/-- A number rounds to itself. -/
theorem Canonical.roundsTo (h : Canonical coefficient exponent) (negative : Bool) :
    RoundsTo (unpacked negative coefficient exponent)
      (signedValue negative (coefficient * 2 ^ exponent)) := by
  refine ⟨negative, magnitude coefficient exponent, coefficient, exponent, ?_, h, rfl, ?_⟩
  · rw [value_magnitude]
  · exact nearestBits_magnitude h

theorem roundsTo_zero (sign : Sign) : RoundsTo (.zero sign) 0 := by
  obtain ⟨negative, rfl⟩ : ∃ negative, sign = modelSign negative := by
    cases sign
    · exact ⟨true, rfl⟩
    · exact ⟨false, rfl⟩
  have hzero := canonical_zero.roundsTo negative
  rwa [Nat.cast_zero, zero_mul, signedValue_zero] at hzero

/-- What the model rounds on the grid is correctly rounded. -/
theorem roundsTo_roundWithAccuracy {r : Ratio} {accuracy : Accuracy} (h : r.num ≠ 0)
    (hrepresents : Represents (.ofMantissaAndAccuracy coefficient accuracy) (r.value / 2 ^ exponent))
    (hle : exponent ≤ gridExponent r) (negative : Bool) :
    RoundsTo (roundWithAccuracy Format.binary64 (modelSign negative) coefficient exponent accuracy)
      (signedValue negative r.value) := by
  obtain ⟨hcanonical, hbits, -⟩ := carried_round_spec h
  exact ⟨negative, r, _, _, rfl, hcanonical, roundWithAccuracy_eq h hrepresents hle negative, hbits⟩

/-- Coefficients of any length are rounded. -/
theorem roundsTo_round (h : coefficient ≠ 0) (exponent : Int) (negative : Bool) :
    RoundsTo (UnpackedFloat.round Format.binary64 (modelSign negative) coefficient exponent)
      (signedValue negative (coefficient * 2 ^ exponent)) := by
  have hvalue := value_magnitude coefficient exponent
  have hnum : (magnitude coefficient exponent).num ≠ 0 := by
    rw [← Ratio.value_pos_iff, hvalue]
    exact value_pos h exponent
  have htarget : Format.binary64.targetExponent (totalExponent coefficient exponent) =
      gridExponent (magnitude coefficient exponent) := by
    rw [targetExponent_eq]
    unfold totalExponent gridExponent
    rw [intLog_magnitude h]
    omega
  -- the coefficient is made longer where the grid asks for it
  let longer := (exponent - gridExponent (magnitude coefficient exponent)).toNat
  have hlonger : ((coefficient <<< longer : Nat) : Rat) =
      (magnitude coefficient exponent).value / 2 ^ (exponent - (longer : Int)) := by
    have hpower : (2 : Rat) ^ (exponent - (longer : Int)) ≠ 0 := zpow_ne_zero _ two_ne_zero
    rw [Nat.shiftLeft_eq, hvalue, eq_div_iff hpower]
    push_cast
    rw [mul_assoc, ← zpow_natCast, ← zpow_add₀ two_ne_zero, add_sub_cancel]
  have hrepresents : Represents (.ofMantissaAndAccuracy (coefficient <<< longer) .exact)
      ((magnitude coefficient exponent).value / 2 ^ (exponent - (longer : Int))) := by
    rw [← hlonger]
    exact represents_exact _
  have hround := roundWithAccuracy_eq hnum hrepresents (by omega) negative
  obtain ⟨hcanonical, hbits, -⟩ := carried_round_spec hnum
  refine ⟨negative, magnitude coefficient exponent, _, _, by rw [hvalue], hcanonical, ?_, hbits⟩
  unfold UnpackedFloat.round decreaseExponent
  simp only [htarget]
  exact hround

/-- A coefficient with its sign is rounded. -/
theorem roundsTo_normalize (mantissa : Int) (exponent : Int) :
    RoundsTo (UnpackedFloat.normalize Format.binary64 mantissa exponent .positive)
      (mantissa * 2 ^ exponent) := by
  unfold UnpackedFloat.normalize
  rcases lt_trichotomy mantissa 0 with hlt | rfl | hgt
  · rw [compare_lt_iff_lt.mpr hlt]
    have hne : (-mantissa).toNat ≠ 0 := by omega
    have hround := roundsTo_round hne exponent true
    have hcast : (((-mantissa).toNat : Nat) : Rat) = -(mantissa : Rat) := by
      have hint : (((-mantissa).toNat : Nat) : Int) = -mantissa := by omega
      exact_mod_cast congrArg (Int.cast (R := Rat)) hint
    rwa [hcast, signedValue, if_pos rfl, neg_mul, neg_neg] at hround
  · rw [compare_eq_iff_eq.mpr rfl, Int.cast_zero, zero_mul]
    exact roundsTo_zero .positive
  · rw [compare_gt_iff_gt.mpr hgt]
    have hne : mantissa.toNat ≠ 0 := by omega
    have hround := roundsTo_round hne exponent false
    have hcast : ((mantissa.toNat : Nat) : Rat) = (mantissa : Rat) := by
      have hint : ((mantissa.toNat : Nat) : Int) = mantissa := by omega
      exact_mod_cast congrArg (Int.cast (R := Rat)) hint
    rwa [hcast] at hround

/-! ## Order and bounds -/

/-- Sign and magnitude of a pattern are told apart. -/
theorem signBits_inj {low low' : Nat} (hlow : low < 2 ^ 63) (hlow' : low' < 2 ^ 63)
    (h : signBits negative + low = signBits negative' + low') : negative = negative' ∧ low = low' := by
  have hset : signBits true = 2 ^ 63 := rfl
  have hclear : signBits false = 0 := rfl
  cases negative <;> cases negative'
  · exact ⟨rfl, by omega⟩
  · omega
  · omega
  · exact ⟨rfl, by omega⟩

theorem Canonical.unsignedBits_lt (h : Canonical coefficient exponent) (hle : exponent ≤ 971) :
    unsignedBits coefficient exponent < infinityBits := by
  have hlt := h.coefficient_lt
  have hge := h.least_le
  have hleast : leastExponent = -1074 := rfl
  rw [infinityBits_eq]
  unfold unsignedBits
  omega

theorem Canonical.le_of_unsignedBits_lt (h : Canonical coefficient exponent)
    (hlt : unsignedBits coefficient exponent < infinityBits) : exponent ≤ 971 := by
  have hnormal := h.normal
  have hleast : leastExponent = -1074 := rfl
  rw [infinityBits_eq] at hlt
  unfold unsignedBits at hlt
  omega

/-- A finite number is itself correctly rounded. -/
theorem isRounded_rational (h : z.isFinite = true) : IsRounded z (rational z) := by
  obtain ⟨negative, coefficient, exponent, hz⟩ := isFinite_iff_ofFloat.mp h
  obtain ⟨hcanonical, hle, hbits⟩ := ofFloat_eq_finite_iff.mp hz
  refine ⟨negative, magnitude coefficient exponent, ?_, ?_⟩
  · rw [rational_of_ofFloat hz, value_magnitude]
  · rw [hbits, nearestBits_magnitude hcanonical]
    exact congrArg _ (min_eq_left (hcanonical.unsignedBits_lt hle).le).symm

theorem isRounded_nearest (r : Ratio) : IsRounded (nearest false r) r.value :=
  ⟨false, r, rfl, (toNat_toBits_nearest r).trans (Nat.zero_add _).symm⟩

theorem isRounded_ofNat (n : Nat) : IsRounded (ofNat n) n := by
  rw [← Ratio.value_ofNat n]
  exact isRounded_nearest (Ratio.ofNat n)

/-- Where a correctly rounded number is finite, it has the sign of the value and the pattern that is found
for its magnitude, below that of infinity. -/
theorem IsRounded.ofFloat_spec (h : IsRounded z value) (hz : z.isFinite = true) :
    ∃ negative r, ∃ coefficient : Nat, ∃ exponent, signedValue negative r.value = value ∧
      ofFloat z = .finite negative coefficient exponent ∧ Canonical coefficient exponent ∧
      unsignedBits coefficient exponent < infinityBits ∧
      nearestBits r = unsignedBits coefficient exponent := by
  obtain ⟨negative, r, hvalue, hpattern⟩ := h
  obtain ⟨negative', coefficient, exponent, hfinite⟩ := isFinite_iff_ofFloat.mp hz
  obtain ⟨hcanonical, hle, hbits⟩ := ofFloat_eq_finite_iff.mp hfinite
  have hinfinity : infinityBits < 2 ^ 63 := by decide
  have hlt := hcanonical.unsignedBits_lt hle
  obtain ⟨rfl, hlow⟩ := signBits_inj ((nearestBits_le r).trans_lt hinfinity) (hlt.trans hinfinity)
    (hpattern.symm.trans hbits)
  exact ⟨negative, r, coefficient, exponent, hvalue, hfinite, hcanonical, hlt, hlow⟩

/-- Its coefficient and exponent are nearest. -/
theorem IsRounded.spec (h : IsRounded z value) (hz : z.isFinite = true) :
    ∃ negative r, ∃ coefficient : Nat, ∃ exponent, signedValue negative r.value = value ∧
      rational z = signedValue negative (coefficient * 2 ^ exponent) ∧
      Canonical coefficient exponent ∧ nearestBits r = unsignedBits coefficient exponent ∧
      Nearest coefficient exponent r.value := by
  obtain ⟨negative, r, coefficient, exponent, hvalue, hfinite, hcanonical, hlt, hlow⟩ :=
    h.ofFloat_spec hz
  obtain ⟨c, e, hc, hfound, hnearest⟩ := exists_nearest r
  obtain ⟨rfl, rfl⟩ := hc.unsignedBits_inj hcanonical (by omega)
  exact ⟨negative, r, c, e, hvalue, rational_of_ofFloat hfinite, hcanonical, hlow, hnearest⟩

/-- Unless the value is zero, they stand for the value rounded on its grid. -/
theorem IsRounded.on_grid (h : IsRounded z value) (hz : z.isFinite = true) (hvalue : value ≠ 0) :
    ∃ negative r, signedValue negative r.value = value ∧
      rational z = signedValue negative ((r.scale2 (-gridExponent r)).round * 2 ^ gridExponent r) := by
  obtain ⟨negative, r, c, e, rfl, hfinite, hcanonical, hlt, hlow⟩ := h.ofFloat_spec hz
  have hnum : r.num ≠ 0 := by
    intro hzero
    rw [Ratio.value, hzero, Nat.cast_zero, zero_div, signedValue_zero] at hvalue
    exact hvalue rfl
  obtain ⟨hround, hfound, hgrid⟩ := carried_round_spec hnum
  obtain ⟨hc, he⟩ := hcanonical.unsignedBits_inj hround (by omega)
  refine ⟨negative, r, rfl, ?_⟩
  rw [rational_of_ofFloat hfinite, ← hgrid, hc, he]

theorem coefficient_eq_zero {r : Ratio} (hbits : nearestBits r = unsignedBits coefficient exponent)
    (hle : r.value ≤ 0) : coefficient = 0 := by
  have hnum : r.num = 0 := by
    by_contra hne
    exact hle.not_gt (Ratio.value_pos_iff.mpr hne)
  rw [nearestBits, if_pos hnum] at hbits
  unfold unsignedBits at hbits
  omega

/-- **Rounding keeps the order** of the values, with their signs (`rational`). -/
theorem IsRounded.mono (h : IsRounded x value) (h' : IsRounded y value') (hx : x.isFinite = true)
    (hy : y.isFinite = true) (hle : value ≤ value') : rational x ≤ rational y := by
  obtain ⟨negative, r, c, e, rfl, hrational, hc, hbits, -⟩ := h.spec hx
  obtain ⟨negative', r', c', e', rfl, hrational', hc', hbits', -⟩ := h'.spec hy
  have hnonneg : (0 : Rat) ≤ c * 2 ^ e := by positivity
  have hnonneg' : (0 : Rat) ≤ c' * 2 ^ e' := by positivity
  rw [hrational, hrational']
  cases negative with
  | true =>
      cases negative' with
      | true =>
          have hreverse := nearestBits_mono (neg_le_neg_iff.mp hle)
          rw [hbits, hbits', hc'.unsignedBits_le_iff hc] at hreverse
          exact neg_le_neg hreverse
      | false => exact (neg_nonpos.mpr hnonneg).trans hnonneg'
  | false =>
      cases negative' with
      | true =>
          -- what is not negative is at most what is not positive, so both are zero
          have hle' : r.value ≤ -r'.value := hle
          have hr := r.value_nonneg
          have hr' := r'.value_nonneg
          rw [coefficient_eq_zero hbits (by linarith), coefficient_eq_zero hbits' (by linarith),
            Nat.cast_zero, zero_mul, zero_mul, signedValue_zero, signedValue_zero]
      | false =>
          have hsame := nearestBits_mono hle
          rwa [hbits, hbits', hc.unsignedBits_le_iff hc'] at hsame

/-- A finite number below the value is not above the rounded one. -/
theorem IsRounded.ge_of_ge (h : IsRounded z value) (hz : z.isFinite = true) (hx : x.isFinite = true)
    (hle : rational x ≤ value) : rational x ≤ rational z :=
  (isRounded_rational hx).mono h hx hz hle

/-- A finite number above the value is not below the rounded one. -/
theorem IsRounded.le_of_le (h : IsRounded z value) (hz : z.isFinite = true) (hx : x.isFinite = true)
    (hle : value ≤ rational x) : rational z ≤ rational x :=
  h.mono (isRounded_rational hx) hz hx hle

/-- **Nothing overflows** that does not exceed a finite number by more than one: what `IsRounded` there is
finite. -/
theorem IsRounded.isFinite (h : IsRounded z value) (hx : x.isFinite = true)
    (hle : |value| ≤ |rational x| + 1) : z.isFinite = true := by
  obtain ⟨negative, r, rfl, hpattern⟩ := h
  obtain ⟨negative', c', e', hfinite⟩ := isFinite_iff_ofFloat.mp hx
  obtain ⟨hc', hle', -⟩ := ofFloat_eq_finite_iff.mp hfinite
  obtain ⟨c, e, hc, hbits, hnearest⟩ := exists_nearest r
  rw [rational_of_ofFloat hfinite, abs_signedValue _ r.value_nonneg,
    abs_signedValue _ (by positivity)] at hle
  have hroom := hc'.value_add_two_lt hle'
  have hlt : (c : Rat) * 2 ^ e < 2 ^ (1024 : Int) := by
    refine lt_of_le_of_lt ?_ hroom
    have hcloser := hnearest c' e' hc'
    have hself := le_abs_self ((c : Rat) * 2 ^ e - r.value)
    -- the given number competes, from above or from below
    rcases le_total r.value (c' * 2 ^ e') with hbelow | habove
    · rw [abs_of_nonneg (sub_nonneg.mpr hbelow)] at hcloser
      linarith
    · rw [abs_of_nonpos (sub_nonpos.mpr habove)] at hcloser
      linarith
  have hbelow := hc.lt_infinityBits_iff.mpr hlt
  have hz : ofFloat z = .finite negative c e :=
    ofFloat_eq_finite_iff.mpr
      ⟨hc, hc.le_of_unsignedBits_lt hbelow, by rw [hpattern, hbits, min_eq_left hbelow.le]⟩
  exact isFinite_of_ofFloat hz

/-- Every coefficient and exponent in normal form is a number. -/
theorem Canonical.exists_ofFloat (h : Canonical coefficient exponent) (hle : exponent ≤ 971) :
    ∃ x, ofFloat x = .finite false coefficient exponent := by
  refine ⟨nearest false (magnitude coefficient exponent), ofFloat_eq_finite_iff.mpr ⟨h, hle, ?_⟩⟩
  rw [toNat_toBits_nearest, nearestBits_magnitude h]
  exact (min_eq_left (h.unsignedBits_lt hle).le).trans (Nat.zero_add _).symm

/-- **Powers of two bound** what `IsRounded` if they bound the value. -/
theorem IsRounded.bounded (h : IsRounded z value) (n : Nat) (hn : n ≤ 1000) (hle : |value| ≤ 2 ^ n) :
    z.isFinite = true ∧ |rational z| ≤ 2 ^ n := by
  have hcanonical : Canonical (2 ^ 52) ((n : Int) - 52) :=
    ⟨by decide, by rw [show leastExponent = -1074 from rfl]; omega, .inr le_rfl⟩
  obtain ⟨x, hx⟩ := hcanonical.exists_ofFloat (by omega)
  have hfinite := isFinite_of_ofFloat hx
  have hpower : rational x = 2 ^ n := by
    rw [rational_of_ofFloat hx]
    show ((2 ^ 52 : Nat) : Rat) * 2 ^ ((n : Int) - 52) = 2 ^ n
    rw [Nat.cast_pow, Nat.cast_two, ← zpow_natCast, ← zpow_add₀ two_ne_zero, ← zpow_natCast]
    exact congrArg _ (by push_cast; ring)
  have hz : z.isFinite = true := by
    refine h.isFinite hfinite ?_
    have hpos : (0 : Rat) < 2 ^ n := pow_pos two_pos n
    rw [hpower, abs_of_pos hpos]
    linarith
  obtain ⟨hlower, hupper⟩ := abs_le.mp hle
  refine ⟨hz, abs_le.mpr ⟨?_, ?_⟩⟩
  · have hneg := h.ge_of_ge hz (isFinite_neg hfinite) (by rwa [rational_neg hfinite, hpower])
    rwa [rational_neg hfinite, hpower] at hneg
  · rw [← hpower] at hupper ⊢
    exact h.le_of_le hz hfinite hupper

end

end Calculator.Binary64
