import Calculator.Proofs.Number.Rounding

/-!
# `Proofs.Number.Arithmetic` — sums, differences, products and quotients are rounded once

Arithmetic takes numbers apart, computes with their coefficients as far as the result can tell, and rounds.
Coefficients are added on the finer of two grids, their product is as long as it is, and a quotient is cut
off where it has one bit more than it may keep. So what comes out is the exact result correctly rounded.

## Contents

* `Binary64.roundsTo_add`, `Binary64.roundsTo_mul`, `Binary64.roundsTo_div` — in the model of numbers
* `Binary64.isRounded_add`, `Binary64.isRounded_sub`, `Binary64.isRounded_mul`, `Binary64.isRounded_div` —
  the same for numbers
* `Binary64.isFinite_of_add`, `Binary64.isFinite_of_mul`, `Binary64.isFinite_of_div` — what is finite comes
  from what is
-/

open Float.Model Float.Model.UnpackedFloat

namespace Calculator.Binary64

section

variable {x y z : Float} {coefficient coefficient' : Nat} {exponent exponent' : Int}
  {negative negative' : Bool} {model model' : UnpackedFloat}

/-! ## Sums and differences -/

/-- A coefficient with its sign, on a grid that is not coarser than its own. -/
theorem apply_shiftLeft (negative : Bool) (coefficient : Nat) {grid : Int} (hle : grid ≤ exponent) :
    (((modelSign negative).apply ((coefficient <<< (exponent - grid).toNat : Nat) : Int) : Int) : Rat) *
      2 ^ grid = signedValue negative (coefficient * 2 ^ exponent) := by
  have hshift : ((coefficient <<< (exponent - grid).toNat : Nat) : Rat) * 2 ^ grid =
      coefficient * 2 ^ exponent := by
    have hexponent : ((exponent - grid).toNat : Int) + grid = exponent := by omega
    rw [Nat.shiftLeft_eq]
    push_cast
    rw [mul_assoc, ← zpow_natCast, ← zpow_add₀ two_ne_zero, hexponent]
  cases negative with
  | true =>
      show ((-((coefficient <<< (exponent - grid).toNat : Nat) : Int) : Int) : Rat) * 2 ^ grid =
        -((coefficient : Rat) * 2 ^ exponent)
      rw [Int.cast_neg, Int.cast_natCast, neg_mul, hshift]
  | false =>
      show (((coefficient <<< (exponent - grid).toNat : Nat) : Int) : Rat) * 2 ^ grid =
        (coefficient : Rat) * 2 ^ exponent
      rw [Int.cast_natCast, hshift]

theorem roundsTo_add (h : Canonical coefficient exponent) (h' : Canonical coefficient' exponent') :
    RoundsTo (UnpackedFloat.add Format.binary64 (unpacked negative coefficient exponent)
        (unpacked negative' coefficient' exponent'))
      (signedValue negative (coefficient * 2 ^ exponent) +
        signedValue negative' (coefficient' * 2 ^ exponent')) := by
  by_cases hzero : coefficient = 0
  · subst hzero
    rw [unpacked_zero, Nat.cast_zero, zero_mul, signedValue_zero, zero_add]
    by_cases hzero' : coefficient' = 0
    · subst hzero'
      rw [unpacked_zero, Nat.cast_zero, zero_mul, signedValue_zero]
      -- only two negative zeros add up to a negative one
      cases negative <;> cases negative'
      · exact roundsTo_zero .positive
      · exact roundsTo_zero .positive
      · exact roundsTo_zero .positive
      · exact roundsTo_zero .negative
    · -- the other one comes out as it is, and is its own rounding
      have hsame := h'.roundsTo negative'
      rw [unpacked_of_ne hzero'] at hsame ⊢
      exact hsame
  · rw [unpacked_of_ne hzero]
    by_cases hzero' : coefficient' = 0
    · subst hzero'
      have hsame := h.roundsTo negative
      rw [unpacked_of_ne hzero] at hsame
      rw [unpacked_zero, Nat.cast_zero, zero_mul, signedValue_zero, add_zero]
      exact hsame
    · -- both coefficients are whole on the finer grid, and so is their sum
      rw [unpacked_of_ne hzero']
      have hsum := roundsTo_normalize
        ((modelSign negative).apply
            ((coefficient <<< (exponent - min exponent exponent').toNat : Nat)) +
          (modelSign negative').apply
            ((coefficient' <<< (exponent' - min exponent exponent').toNat : Nat)))
        (min exponent exponent')
      rw [Int.cast_add, add_mul, apply_shiftLeft negative coefficient (min_le_left _ _),
        apply_shiftLeft negative' coefficient' (min_le_right _ _)] at hsum
      exact hsum

theorem signedValue_not (negative : Bool) (value : Rat) :
    signedValue (!negative) value = -signedValue negative value := by
  cases negative with
  | true => exact (neg_neg value).symm
  | false => rfl

/-- To subtract is to add with the other sign. -/
theorem sub_unpacked (negative negative' : Bool) (coefficient coefficient' : Nat)
    (exponent exponent' : Int) :
    UnpackedFloat.sub Format.binary64 (unpacked negative coefficient exponent)
        (unpacked negative' coefficient' exponent') =
      UnpackedFloat.add Format.binary64 (unpacked negative coefficient exponent)
        (unpacked (!negative') coefficient' exponent') := by
  by_cases hzero : coefficient = 0
  · subst hzero
    rw [unpacked_zero]
    by_cases hzero' : coefficient' = 0
    · subst hzero'
      rw [unpacked_zero, unpacked_zero]
      cases negative <;> cases negative' <;> rfl
    · rw [unpacked_of_ne hzero', unpacked_of_ne hzero']
      cases negative <;> cases negative' <;> rfl
  · rw [unpacked_of_ne hzero]
    by_cases hzero' : coefficient' = 0
    · subst hzero'
      rw [unpacked_zero, unpacked_zero]
      rfl
    · have hsign : ∀ n : Int, (modelSign (!negative')).apply n = -(modelSign negative').apply n := by
        intro n
        cases negative' with
        | true => exact (neg_neg n).symm
        | false => rfl
      rw [unpacked_of_ne hzero', unpacked_of_ne hzero']
      simp only [UnpackedFloat.sub, UnpackedFloat.add, hsign, Int.sub_eq_add_neg]

theorem roundsTo_sub (h : Canonical coefficient exponent) (h' : Canonical coefficient' exponent') :
    RoundsTo (UnpackedFloat.sub Format.binary64 (unpacked negative coefficient exponent)
        (unpacked negative' coefficient' exponent'))
      (signedValue negative (coefficient * 2 ^ exponent) -
        signedValue negative' (coefficient' * 2 ^ exponent')) := by
  rw [sub_unpacked, sub_eq_add_neg, ← signedValue_not]
  exact roundsTo_add h h'

/-! ## Products -/

theorem signedValue_xor (negative negative' : Bool) (value value' : Rat) :
    signedValue (negative ^^ negative') (value * value') =
      signedValue negative value * signedValue negative' value' := by
  cases negative <;> cases negative' <;> simp [signedValue]

theorem modelSign_mul (negative negative' : Bool) :
    modelSign negative * modelSign negative' = modelSign (negative ^^ negative') := by
  cases negative <;> cases negative' <;> rfl

theorem modelSign_div (negative negative' : Bool) :
    modelSign negative / modelSign negative' = modelSign (negative ^^ negative') := by
  cases negative <;> cases negative' <;> rfl

/-- The product of two coefficients is long enough for its grid, or the grid is the finest one. -/
theorem mul_exponent_le (h : Canonical coefficient exponent) (h' : Canonical coefficient' exponent')
    (hne : coefficient ≠ 0) (hne' : coefficient' ≠ 0) :
    exponent + exponent' ≤
      gridExponent (magnitude (coefficient * coefficient') (exponent + exponent')) := by
  have hleast := h.least_le
  have hleast' := h'.least_le
  have hmin : leastExponent = -1074 := rfl
  unfold gridExponent
  rw [intLog_magnitude (Nat.mul_ne_zero hne hne')]
  by_cases hfinest : exponent = leastExponent ∧ exponent' = leastExponent
  · omega
  · have hlong : 2 ^ 52 ≤ coefficient * coefficient' := by
      rcases not_and_or.mp hfinest with hcoarse | hcoarse
      · exact (h.normal.resolve_left hcoarse).trans (Nat.le_mul_of_pos_right _ (Nat.pos_of_ne_zero hne'))
      · exact (h'.normal.resolve_left hcoarse).trans (Nat.le_mul_of_pos_left _ (Nat.pos_of_ne_zero hne))
    have hlog : 52 ≤ (coefficient * coefficient').log2 :=
      (Nat.le_log2 (Nat.mul_ne_zero hne hne')).mpr hlong
    omega

theorem roundsTo_mul (h : Canonical coefficient exponent) (h' : Canonical coefficient' exponent') :
    RoundsTo (UnpackedFloat.mul Format.binary64 (unpacked negative coefficient exponent)
        (unpacked negative' coefficient' exponent'))
      (signedValue negative (coefficient * 2 ^ exponent) *
        signedValue negative' (coefficient' * 2 ^ exponent')) := by
  by_cases hzero : coefficient = 0
  · subst hzero
    rw [unpacked_zero, Nat.cast_zero, zero_mul, signedValue_zero, zero_mul]
    by_cases hzero' : coefficient' = 0
    · subst hzero'
      rw [unpacked_zero]
      exact roundsTo_zero _
    · rw [unpacked_of_ne hzero']
      exact roundsTo_zero _
  · rw [unpacked_of_ne hzero]
    by_cases hzero' : coefficient' = 0
    · subst hzero'
      rw [unpacked_zero, Nat.cast_zero, zero_mul, signedValue_zero, mul_zero]
      exact roundsTo_zero _
    · rw [unpacked_of_ne hzero', ← signedValue_xor]
      simp only [UnpackedFloat.mul, modelSign_mul]
      have hproduct : (coefficient : Rat) * 2 ^ exponent * (coefficient' * 2 ^ exponent') =
          (magnitude (coefficient * coefficient') (exponent + exponent')).value := by
        rw [value_magnitude, zpow_add₀ two_ne_zero, Nat.cast_mul]
        ring
      have hnum : (magnitude (coefficient * coefficient') (exponent + exponent')).num ≠ 0 := by
        rw [← Ratio.value_pos_iff, value_magnitude]
        exact value_pos (Nat.mul_ne_zero hzero hzero') _
      have hrepresents : Represents (.ofMantissaAndAccuracy (coefficient * coefficient') .exact)
          ((magnitude (coefficient * coefficient') (exponent + exponent')).value /
            2 ^ (exponent + exponent')) := by
        have hpower : (2 : Rat) ^ (exponent + exponent') ≠ 0 := zpow_ne_zero _ two_ne_zero
        rw [value_magnitude, mul_div_assoc, div_self hpower, mul_one]
        exact represents_exact _
      rw [hproduct]
      exact roundsTo_roundWithAccuracy hnum hrepresents (mul_exponent_le h h' hzero hzero') _

/-! ## Quotients -/

/-- Whole quotient and rest stand for the quotient. -/
theorem represents_quotient (n : Nat) {m : Nat} (hm : m ≠ 0) :
    Represents (.ofMantissaAndAccuracy (n / m) (accuracyOfFraction (n % m) m)) ((n : Rat) / m) := by
  have hpos : (0 : Rat) < m := by exact_mod_cast Nat.pos_of_ne_zero hm
  have hsplit : (n : Rat) / m = (n / m : Nat) + ((n % m : Nat) : Rat) / m := by
    have hdivision : (m : Rat) * (n / m : Nat) + (n % m : Nat) = n := by
      exact_mod_cast Nat.div_add_mod n m
    rw [div_eq_iff hpos.ne', add_mul, div_mul_cancel₀ _ hpos.ne', ← hdivision]
    ring
  have hlt : ((n % m : Nat) : Rat) / m < 1 := by
    rw [div_lt_one hpos]
    exact_mod_cast Nat.mod_lt n (Nat.pos_of_ne_zero hm)
  unfold accuracyOfFraction
  by_cases hrest : n % m = 0
  · rw [if_pos hrest]
    show (n : Rat) / m = (n / m : Nat)
    rw [hsplit, hrest, Nat.cast_zero, zero_div, add_zero]
  · have hrestPos : (0 : Rat) < ((n % m : Nat) : Rat) / m :=
      div_pos (by exact_mod_cast Nat.pos_of_ne_zero hrest) hpos
    rw [if_neg hrest]
    -- the rest against half of the divisor
    rcases lt_trichotomy (2 * (n % m)) m with hbelow | hhalf | habove
    · rw [compare_lt_iff_lt.mpr hbelow]
      show ((n / m : Nat) : Rat) < (n : Rat) / m ∧ (n : Rat) / m < (n / m : Nat) + 1 / 2
      have hbelow' : ((n % m : Nat) : Rat) / m < 1 / 2 := by
        rw [div_lt_div_iff₀ hpos two_pos]
        have hcast : (2 : Rat) * (n % m : Nat) < m := by exact_mod_cast hbelow
        linarith
      rw [hsplit]
      constructor <;> linarith
    · rw [compare_eq_iff_eq.mpr hhalf]
      show (n : Rat) / m = (n / m : Nat) + 1 / 2
      have hhalf' : ((n % m : Nat) : Rat) / m = 1 / 2 := by
        rw [div_eq_div_iff hpos.ne' two_ne_zero]
        have hcast : (2 : Rat) * (n % m : Nat) = m := by exact_mod_cast hhalf
        linarith
      rw [hsplit, hhalf']
    · rw [compare_gt_iff_gt.mpr habove]
      show ((n / m : Nat) : Rat) + 1 / 2 < (n : Rat) / m ∧ (n : Rat) / m < (n / m : Nat) + 1
      have habove' : (1 : Rat) / 2 < ((n % m : Nat) : Rat) / m := by
        rw [div_lt_div_iff₀ two_pos hpos]
        have hcast : (m : Rat) < 2 * (n % m : Nat) := by exact_mod_cast habove
        linarith
      rw [hsplit]
      constructor <;> linarith

/-- The magnitude of a quotient. -/
def quotient (coefficient : Nat) (exponent : Int) {coefficient' : Nat} (h : coefficient' ≠ 0)
    (exponent' : Int) : Ratio :=
  Ratio.scale2 ⟨coefficient, coefficient', Nat.pos_of_ne_zero h⟩ (exponent - exponent')

theorem value_quotient (h : coefficient' ≠ 0) :
    (quotient coefficient exponent h exponent').value =
      coefficient * 2 ^ exponent / (coefficient' * 2 ^ exponent') := by
  rw [quotient, Ratio.value_scale2, Ratio.value, zpow_sub₀ two_ne_zero, div_mul_div_comm]

/-- The exponents of dividend and divisor tell that of the quotient but for one. -/
theorem sub_totalExponent_le (h : coefficient ≠ 0) (h' : coefficient' ≠ 0) (exponent exponent' : Int) :
    totalExponent coefficient exponent - totalExponent coefficient' exponent' - 1 ≤
      Int.log 2 (quotient coefficient exponent h' exponent').value := by
  have hpos := value_pos h exponent
  have hpos' := value_pos h' exponent'
  rw [value_quotient, ← Int.zpow_le_iff_le_log (by decide) (div_pos hpos hpos'), le_div_iff₀ hpos']
  have hlower : (2 : Rat) ^ (coefficient.log2 : Int) ≤ coefficient := by
    exact_mod_cast Nat.log2_self_le h
  have hupper : (coefficient' : Rat) ≤ 2 ^ ((coefficient'.log2 : Int) + 1) := by
    exact_mod_cast (Nat.lt_log2_self (n := coefficient')).le
  unfold totalExponent
  push_cast
  calc (2 : Rat) ^ ((coefficient.log2 : Int) + 1 + exponent - (coefficient'.log2 + 1 + exponent') - 1) *
        (coefficient' * 2 ^ exponent')
      ≤ (2 : Rat) ^ ((coefficient.log2 : Int) + 1 + exponent - (coefficient'.log2 + 1 + exponent') - 1) *
          (2 ^ ((coefficient'.log2 : Int) + 1) * 2 ^ exponent') := by gcongr
    _ = (2 : Rat) ^ (coefficient.log2 : Int) * 2 ^ exponent := by
        simp only [← zpow_add₀ (two_ne_zero (α := Rat))]
        exact congrArg _ (by ring)
    _ ≤ (coefficient : Rat) * 2 ^ exponent := by gcongr

/-- The model divides as if the quotient had one bit more than it may have. -/
theorem divCore_spec (h : coefficient ≠ 0) (h' : coefficient' ≠ 0) (exponent exponent' : Int) :
    let whole := divCore Format.binary64 coefficient exponent coefficient' exponent'
    Represents (.ofMantissaAndAccuracy whole.1 whole.2.2)
        ((quotient coefficient exponent h' exponent').value / 2 ^ whole.2.1) ∧
      whole.2.1 ≤ gridExponent (quotient coefficient exponent h' exponent') := by
  intro whole
  let target := Format.binary64.targetExponent
    (totalExponent coefficient exponent - totalExponent coefficient' exponent')
  let grid := min (exponent - exponent') target
  have hwhole : whole = (coefficient <<< (exponent - exponent' - grid).toNat / coefficient', grid,
      accuracyOfFraction (coefficient <<< (exponent - exponent' - grid).toNat % coefficient')
        coefficient') := rfl
  have hgrid : grid ≤ exponent - exponent' := min_le_left _ _
  constructor
  · -- the dividend is made longer before it is divided
    have hshift : ((exponent - exponent' - grid).toNat : Int) = exponent - exponent' - grid := by omega
    have hquotient : (quotient coefficient exponent h' exponent').value / 2 ^ grid =
        ((coefficient <<< (exponent - exponent' - grid).toNat : Nat) : Rat) / coefficient' := by
      rw [quotient, Ratio.value_scale2, Ratio.value, Nat.shiftLeft_eq]
      push_cast
      rw [← zpow_natCast, hshift, zpow_sub₀ two_ne_zero (exponent - exponent')]
      ring
    rw [hwhole, hquotient]
    exact represents_quotient _ h'
  · have hlog := sub_totalExponent_le h h' exponent exponent'
    have htarget : target ≤ gridExponent (quotient coefficient exponent h' exponent') := by
      unfold gridExponent
      rw [show target = _ from targetExponent_eq _]
      omega
    exact (min_le_right _ _).trans htarget

theorem roundsTo_div (h' : coefficient' ≠ 0) :
    RoundsTo (UnpackedFloat.div Format.binary64 (unpacked negative coefficient exponent)
        (unpacked negative' coefficient' exponent'))
      (signedValue negative (coefficient * 2 ^ exponent) /
        signedValue negative' (coefficient' * 2 ^ exponent')) := by
  have hsigned : signedValue negative (coefficient * 2 ^ exponent) /
      signedValue negative' (coefficient' * 2 ^ exponent') =
      signedValue (negative ^^ negative') (quotient coefficient exponent h' exponent').value := by
    rw [value_quotient, div_eq_mul_inv, div_eq_mul_inv, signedValue_xor]
    cases negative' with
    | true => exact congrArg _ (inv_neg ..)
    | false => rfl
  rw [unpacked_of_ne h', hsigned]
  by_cases hzero : coefficient = 0
  · subst hzero
    rw [unpacked_zero, value_quotient, Nat.cast_zero, zero_mul, zero_div, signedValue_zero]
    exact roundsTo_zero _
  · rw [unpacked_of_ne hzero]
    have hpos : (quotient coefficient exponent h' exponent').num ≠ 0 := by
      rw [← Ratio.value_pos_iff, value_quotient]
      exact div_pos (value_pos hzero _) (value_pos h' _)
    obtain ⟨hrepresents, hle⟩ := divCore_spec hzero h' exponent exponent'
    simp only [UnpackedFloat.div, modelSign_div]
    exact roundsTo_roundWithAccuracy hpos hrepresents hle _

/-! ## Numbers -/

/-- What the model computes correctly rounded, numbers do. -/
theorem isRounded_of_roundsTo {compute : UnpackedFloat → UnpackedFloat → UnpackedFloat}
    {result : Rat → Rat → Rat} (hx : x.isFinite = true) (hy : y.isFinite = true)
    (hz : pattern z =
      UnpackedFloat.pack Format.binary64 (compute x.toModel.unpack y.toModel.unpack))
    (hrounds : ∀ negative negative' {coefficient coefficient' exponent exponent'},
      Canonical coefficient exponent → Canonical coefficient' exponent' →
      rational y = signedValue negative' (coefficient' * 2 ^ exponent') →
      RoundsTo (compute (unpacked negative coefficient exponent)
          (unpacked negative' coefficient' exponent'))
        (result (signedValue negative (coefficient * 2 ^ exponent))
          (signedValue negative' (coefficient' * 2 ^ exponent')))) :
    IsRounded z (result (rational x) (rational y)) := by
  obtain ⟨negative, coefficient, exponent, hx⟩ := isFinite_iff_ofFloat.mp hx
  obtain ⟨negative', coefficient', exponent', hy⟩ := isFinite_iff_ofFloat.mp hy
  have hrational := rational_of_ofFloat hy
  have hresult := hrounds negative negative' (ofFloat_eq_finite_iff.mp hx).1
    (ofFloat_eq_finite_iff.mp hy).1 hrational
  rw [unpack_eq hx, unpack_eq hy] at hz
  rw [rational_of_ofFloat hx, hrational]
  exact hresult.isRounded hz

theorem isRounded_add (hx : x.isFinite = true) (hy : y.isFinite = true) :
    IsRounded (x + y) (rational x + rational y) :=
  isRounded_of_roundsTo hx hy rfl fun _ _ {_ _ _ _} hc hc' _ => roundsTo_add hc hc'

theorem isRounded_sub (hx : x.isFinite = true) (hy : y.isFinite = true) :
    IsRounded (x - y) (rational x - rational y) :=
  isRounded_of_roundsTo hx hy rfl fun _ _ {_ _ _ _} hc hc' _ => roundsTo_sub hc hc'

theorem isRounded_mul (hx : x.isFinite = true) (hy : y.isFinite = true) :
    IsRounded (x * y) (rational x * rational y) :=
  isRounded_of_roundsTo hx hy rfl fun _ _ {_ _ _ _} hc hc' _ => roundsTo_mul hc hc'

theorem isRounded_div (hx : x.isFinite = true) (hy : y.isFinite = true) (hzero : rational y ≠ 0) :
    IsRounded (x / y) (rational x / rational y) := by
  refine isRounded_of_roundsTo hx hy rfl fun _ _ {_ coefficient' _ _} _ _ hrational => roundsTo_div ?_
  rintro rfl
  rw [Nat.cast_zero, zero_mul, signedValue_zero] at hrational
  exact hzero hrational

/-! ## Finite results -/

theorem isFinite_of_pattern (hz : pattern z = UnpackedFloat.pack Format.binary64 model)
    (h : z.isFinite = true) : model.isFinite = true := by
  rw [isFinite_iff, hz] at h
  cases model with
  | notANumber => exact absurd (unpackExponent_packComponents ..) h
  | infinity sign => exact absurd (unpackExponent_packComponents ..) h
  | zero sign => rfl
  | finite sign mantissa exponent hpos => rfl

/-- Nothing finite is computed from what is not: a sum. -/
theorem isFinite_of_add (h : (x + y).isFinite = true) : x.isFinite = true ∧ y.isFinite = true := by
  have hmodel : (UnpackedFloat.add Format.binary64 x.toModel.unpack y.toModel.unpack).isFinite = true :=
    isFinite_of_pattern (z := x + y) rfl h
  show x.toModel.unpack.isFinite = true ∧ y.toModel.unpack.isFinite = true
  revert hmodel
  cases x.toModel.unpack <;> cases y.toModel.unpack <;> intro hmodel <;>
    first
    | exact ⟨rfl, rfl⟩
    | exact absurd hmodel Bool.false_ne_true
    | skip
  case infinity.infinity sign sign' =>
    -- two infinities add up to one of them or to no number
    cases sign <;> cases sign' <;> exact absurd hmodel Bool.false_ne_true

/-- Nothing finite is computed from what is not: a product. -/
theorem isFinite_of_mul (h : (x * y).isFinite = true) : x.isFinite = true ∧ y.isFinite = true := by
  have hmodel : (UnpackedFloat.mul Format.binary64 x.toModel.unpack y.toModel.unpack).isFinite = true :=
    isFinite_of_pattern (z := x * y) rfl h
  show x.toModel.unpack.isFinite = true ∧ y.toModel.unpack.isFinite = true
  revert hmodel
  cases x.toModel.unpack <;> cases y.toModel.unpack <;> intro hmodel <;>
    first
    | exact ⟨rfl, rfl⟩
    | exact absurd hmodel Bool.false_ne_true

/-- Nothing finite is computed from what is not, but for zero: a quotient. -/
theorem isFinite_of_div (h : (x / y).isFinite = true) :
    x.isFinite = true ∧ (y.isFinite = true ∨ IsRounded (x / y) 0) := by
  have hpack : pattern (x / y) = UnpackedFloat.pack Format.binary64
      (UnpackedFloat.div Format.binary64 x.toModel.unpack y.toModel.unpack) := rfl
  have hmodel := isFinite_of_pattern hpack h
  show x.toModel.unpack.isFinite = true ∧ (y.toModel.unpack.isFinite = true ∨ _)
  revert hmodel hpack
  cases x.toModel.unpack <;> cases y.toModel.unpack <;> intro hpack hmodel <;>
    first
    | exact ⟨rfl, .inl rfl⟩
    | exact absurd hmodel Bool.false_ne_true
    | skip
  case zero.infinity sign sign' => exact ⟨rfl, .inr ((roundsTo_zero _).isRounded hpack)⟩
  case finite.infinity sign _ _ _ sign' => exact ⟨rfl, .inr ((roundsTo_zero _).isRounded hpack)⟩

end

end Calculator.Binary64
