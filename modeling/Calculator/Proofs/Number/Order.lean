import Calculator.Proofs.Number.Nearest

/-!
# `Proofs.Number.Order` — finite numbers are rational numbers in order

A finite number is a rational number: its coefficient times its power of two, with its sign. The model of
numbers compares signs, exponents and coefficients one after the other, and changes signs by changing a
bit. Both are what the order and the sign of the rational number say; only zero is there twice.

## Contents

* `Binary64.ofFloat_eq_finite_iff` — coefficient and exponent, and the pattern that they make up
* `Binary64.unpack_eq` — the same number as the model takes it apart
* `Binary64.rational`, `Binary64.compare_eq` — the rational number, and its order
* `Binary64.lt_iff`, `Binary64.le_iff`, `Binary64.beq_iff` — comparisons
* `Binary64.ofFloat_neg`, `Binary64.ofFloat_abs` — changing or dropping the sign
-/

open Float.Model Float.Model.UnpackedFloat

namespace Calculator.Binary64

/-- A rational number with a sign. -/
def signedValue (negative : Bool) (value : Rat) : Rat := if negative then -value else value

/-- The sign as the model of numbers has it. -/
def modelSign (negative : Bool) : Sign := if negative then .negative else .positive

/-- The pattern of the sign alone. -/
def signBits (negative : Bool) : Nat := if negative then 2 ^ 63 else 0

/-- The rational number that a finite number is. -/
def rational (x : Float) : Rat :=
  match ofFloat x with
  | .finite negative coefficient exponent => signedValue negative (coefficient * 2 ^ exponent)
  | _ => 0

section

variable {x y : Float} {negative negative' : Bool} {coefficient coefficient' : Nat}
  {exponent exponent' : Int}

/-! ## Patterns -/

theorem signBits_mod (negative : Bool) : signBits negative % 2 ^ 63 = 0 := by
  cases negative <;> rfl

/-- The sign of a pattern is its leading bit. -/
theorem decide_eq_iff_signBits {n low : Nat} (hlow : low < 2 ^ 63) (hn : n % 2 ^ 63 = low)
    (hlt : n < 2 ^ 64) : decide (2 ^ 63 ≤ n) = negative ↔ n = signBits negative + low := by
  cases negative with
  | true =>
      rw [decide_eq_true_iff]
      show _ ↔ n = 2 ^ 63 + low
      omega
  | false =>
      rw [decide_eq_false_iff_not]
      show _ ↔ n = 0 + low
      omega

/-- **Coefficient, exponent and sign make up the pattern** of a finite number (`signBits`, `unsignedBits`),
and are made up by it. -/
theorem ofFloat_eq_finite_iff :
    ofFloat x = .finite negative coefficient exponent ↔
      Canonical coefficient exponent ∧ exponent ≤ 971 ∧
        x.toBits.toNat = signBits negative + unsignedBits coefficient exponent := by
  have hleast : leastExponent = -1074 := rfl
  have hbits : x.toBits.toNat < 2 ^ 64 := x.toBits.toNat_lt
  have hzero := signBits_mod negative
  unfold ofFloat unsignedBits
  simp only [Nat.pow_eq]
  constructor
  · intro h
    split at h
    · split at h <;> exact absurd h (by simp)
    · split at h
      · obtain ⟨hsign, rfl, rfl⟩ := Binary64.finite.inj h
        refine ⟨⟨by omega, le_rfl, .inl rfl⟩, by omega, ?_⟩
        exact (decide_eq_iff_signBits (by omega) (by omega) hbits).mp hsign
      · obtain ⟨hsign, rfl, rfl⟩ := Binary64.finite.inj h
        refine ⟨⟨by omega, by omega, .inr (by omega)⟩, by omega, ?_⟩
        exact (decide_eq_iff_signBits (by omega) (by omega) hbits).mp hsign
  · rintro ⟨hcanonical, hle, hpattern⟩
    have hlt := hcanonical.coefficient_lt
    have hge := hcanonical.least_le
    have hnormal := hcanonical.normal
    have hsign : decide (2 ^ 63 ≤ x.toBits.toNat) = negative :=
      (decide_eq_iff_signBits (by omega) (by omega) hbits).mpr hpattern
    rw [hsign, if_neg (by omega)]
    by_cases hsubnormal : x.toBits.toNat / 2 ^ 52 % 2 ^ 11 = 0
    · rw [if_pos hsubnormal]
      congr 1 <;> omega
    · rw [if_neg hsubnormal]
      congr 1 <;> omega

theorem isFinite_iff_ofFloat :
    x.isFinite = true ↔ ∃ negative coefficient exponent,
      ofFloat x = .finite negative coefficient exponent := by
  rw [isFinite_iff, ne_eq, unpackExponent_eq_ones_iff]
  unfold ofFloat
  simp only [Nat.pow_eq]
  constructor
  · intro hones
    rw [if_neg hones]
    split
    · exact ⟨_, _, _, rfl⟩
    · exact ⟨_, _, _, rfl⟩
  · rintro ⟨negative, coefficient, exponent, hfinite⟩ hones
    rw [if_pos hones] at hfinite
    split at hfinite <;> exact absurd hfinite (by simp)

theorem isFinite_of_ofFloat (h : ofFloat x = .finite negative coefficient exponent) :
    x.isFinite = true :=
  isFinite_iff_ofFloat.mpr ⟨negative, coefficient, exponent, h⟩

theorem rational_of_ofFloat (h : ofFloat x = .finite negative coefficient exponent) :
    rational x = signedValue negative (coefficient * 2 ^ exponent) := by
  unfold rational
  rw [h]

/-! ## The model of numbers -/

/-- The number that the model has for a sign, a coefficient and an exponent. -/
def unpacked (negative : Bool) (coefficient : Nat) (exponent : Int) : UnpackedFloat :=
  if h : coefficient = 0 then .zero (modelSign negative)
  else .finite (modelSign negative) coefficient exponent (Nat.pos_of_ne_zero h)

theorem unpacked_zero (negative : Bool) (exponent : Int) :
    unpacked negative 0 exponent = .zero (modelSign negative) := dif_pos rfl

theorem unpacked_of_ne (h : coefficient ≠ 0) (negative : Bool) (exponent : Int) :
    unpacked negative coefficient exponent =
      .finite (modelSign negative) coefficient exponent (Nat.pos_of_ne_zero h) := dif_neg h

theorem ofBitVec_unpackSign (h : ofFloat x = .finite negative coefficient exponent) :
    Sign.ofBitVec (unpackSign (pattern x)) = modelSign negative := by
  obtain ⟨hcanonical, hexponent, hbits⟩ := ofFloat_eq_finite_iff.mp h
  have hlt := hcanonical.coefficient_lt
  have hleast : leastExponent = -1074 := rfl
  have hnat : (unpackSign (pattern x)).toNat = signBits negative / 2 ^ 63 := by
    have hzero := signBits_mod negative
    rw [toNat_unpackSign, toNat_pattern, hbits]
    unfold unsignedBits
    omega
  have hbit : unpackSign (pattern x) = (modelSign negative).toBitVec := by
    apply BitVec.eq_of_toNat_eq
    rw [hnat]
    cases negative <;> rfl
  rw [hbit]
  cases negative <;> rfl

/-- The model takes a number apart into the same sign, coefficient and exponent. -/
theorem unpack_eq (h : ofFloat x = .finite negative coefficient exponent) :
    x.toModel.unpack = unpacked negative coefficient exponent := by
  obtain ⟨hcanonical, hexponent, hbits⟩ := ofFloat_eq_finite_iff.mp h
  have hlt := hcanonical.coefficient_lt
  have hge := hcanonical.least_le
  have hnormal := hcanonical.normal
  have hleast : leastExponent = -1074 := rfl
  have hsign := ofBitVec_unpackSign h
  have hfield := toNat_unpackExponent (pattern x)
  have hfraction := toNat_unpackMantissa (pattern x)
  rw [toNat_pattern, hbits] at hfield hfraction
  -- the sign is above both fields
  have hzero := signBits_mod negative
  unfold unsignedBits at hfield hfraction
  have hones : unpackExponent (pattern x) ≠ -1#11 := isFinite_iff.mp (isFinite_of_ofFloat h)
  have hzeroField : unpackExponent (pattern x) = 0#11 ↔ (unpackExponent (pattern x)).toNat = 0 := by
    rw [← BitVec.toNat_inj]
    exact Iff.rfl
  have hzeroFraction :
      unpackMantissa (pattern x) = 0#52 ↔ (unpackMantissa (pattern x)).toNat = 0 := by
    rw [← BitVec.toNat_inj]
    exact Iff.rfl
  show UnpackedFloat.unpack Format.binary64 (pattern x) = _
  unfold UnpackedFloat.unpack unpacked
  simp only
  rw [if_neg hones]
  by_cases hsubnormal : unpackExponent (pattern x) = 0#11
  · rw [if_pos hsubnormal]
    have hfieldZero := hzeroField.mp hsubnormal
    by_cases hzero : unpackMantissa (pattern x) = 0#52
    · have hfractionZero := hzeroFraction.mp hzero
      rw [dif_pos hzero, dif_pos (by omega), hsign]
    · have hfractionZero := mt hzeroFraction.mpr hzero
      rw [dif_neg hzero, dif_neg (by omega)]
      have hcoefficient : (unpackMantissa (pattern x)).toNat = coefficient := by omega
      have hexponent' : ((unpackExponent (pattern x)).toNat : Int) -
          ((Format.binary64.exponentBias : Nat) + (52 : Nat)) + 1 = exponent := by
        rw [show Format.binary64.exponentBias = 1023 from rfl]
        omega
      congr 1
  · rw [if_neg hsubnormal]
    have hfieldZero := mt hzeroField.mpr hsubnormal
    have hm := (unpackMantissa (pattern x)).isLt
    have hnat : (1#1 ++ unpackMantissa (pattern x)).toNat =
        2 ^ 52 + (unpackMantissa (pattern x)).toNat := by
      rw [BitVec.toNat_append, ← Nat.shiftLeft_add_eq_or_of_lt hm]
      rfl
    rw [dif_neg (by omega)]
    have hcoefficient : (1#1 ++ unpackMantissa (pattern x)).toNat = coefficient := by
      rw [hnat]
      omega
    have hexponent' : ((unpackExponent (pattern x)).toNat : Int) -
        ((Format.binary64.exponentBias : Nat) + (52 : Nat)) = exponent := by
      rw [show Format.binary64.exponentBias = 1023 from rfl]
      omega
    congr 1

/-! ## Signs -/

theorem signedValue_zero (negative : Bool) : signedValue negative 0 = 0 := by
  cases negative with
  | true => exact neg_zero
  | false => rfl

theorem signedValue_ne_zero {value : Rat} (h : 0 < value) (negative : Bool) :
    signedValue negative value ≠ 0 := by
  cases negative with
  | true => exact (neg_neg_of_pos h).ne
  | false => exact h.ne'

theorem abs_signedValue (negative : Bool) {value : Rat} (h : 0 ≤ value) :
    |signedValue negative value| = value := by
  cases negative with
  | true => exact (abs_neg value).trans (abs_of_nonneg h)
  | false => exact abs_of_nonneg h

/-- Where the magnitude is not zero, the sign can be told from the value. -/
theorem signedValue_inj {negative negative' : Bool} {value value' : Rat} (hpos : 0 < value)
    (hpos' : 0 < value') (h : signedValue negative value = signedValue negative' value') :
    negative = negative' ∧ value = value' := by
  have hmagnitude : |signedValue negative value| = |signedValue negative' value'| := by rw [h]
  rw [abs_signedValue _ hpos.le, abs_signedValue _ hpos'.le] at hmagnitude
  refine ⟨?_, hmagnitude⟩
  cases negative <;> cases negative'
  · rfl
  · have hopposite : value = -value' := h
    linarith
  · have hopposite : -value = value' := h
    linarith
  · rfl

/-- The distance of two values of one sign is that of their magnitudes. -/
theorem abs_signedValue_sub (negative : Bool) (value value' : Rat) :
    |signedValue negative value - signedValue negative value'| = |value - value'| := by
  cases negative with
  | true =>
      show |-value - -value'| = |value - value'|
      rw [neg_sub_neg, abs_sub_comm]
  | false => rfl

/-! ## Zero and one -/

theorem isFinite_zero : (0 : Float).isFinite = true := by decide

theorem rational_zero : rational 0 = 0 := by
  have hzero : ofFloat 0 = .finite false 0 leastExponent := rfl
  rw [rational_of_ofFloat hzero, Nat.cast_zero, zero_mul, signedValue_zero]

theorem isFinite_one : (1 : Float).isFinite = true := by decide

theorem rational_one : rational 1 = 1 := by
  have hone : ofFloat 1 = .finite false (2 ^ 52) (-52) := rfl
  rw [rational_of_ofFloat hone]
  norm_num [signedValue]

/-! ## Comparisons -/

theorem value_pos (hne : coefficient ≠ 0) (exponent : Int) :
    (0 : Rat) < coefficient * 2 ^ exponent :=
  mul_pos (by exact_mod_cast Nat.pos_of_ne_zero hne) (zpow_pos two_pos _)

/-- The model compares exponents first and coefficients second. -/
theorem Canonical.compare_eq (h : Canonical coefficient exponent)
    (h' : Canonical coefficient' exponent') :
    (compare exponent exponent').then (compare coefficient coefficient') =
      compare ((coefficient : Rat) * 2 ^ exponent) (coefficient' * 2 ^ exponent') := by
  rcases lt_trichotomy exponent exponent' with hlt | rfl | hgt
  · rw [compare_lt_iff_lt.mpr hlt, compare_lt_iff_lt.mpr (h.lt_of_exponent_lt h' hlt)]
    rfl
  · have hpower : (0 : Rat) < 2 ^ exponent := zpow_pos two_pos _
    rw [compare_eq_iff_eq.mpr rfl]
    rcases lt_trichotomy coefficient coefficient' with hlt | rfl | hgt
    · have hlt' := (h.lt_iff h').mpr (.inr ⟨rfl, hlt⟩)
      rw [compare_lt_iff_lt.mpr hlt, compare_lt_iff_lt.mpr hlt']
      rfl
    · rw [compare_eq_iff_eq.mpr rfl, compare_eq_iff_eq.mpr rfl]
      rfl
    · have hgt' := (h'.lt_iff h).mpr (.inr ⟨rfl, hgt⟩)
      rw [compare_gt_iff_gt.mpr hgt, compare_gt_iff_gt.mpr hgt']
      rfl
  · rw [compare_gt_iff_gt.mpr hgt, compare_gt_iff_gt.mpr (h'.lt_of_exponent_lt h hgt)]
    rfl

theorem compare_neg_neg (a b : Rat) : compare (-a) (-b) = (compare a b).swap := by
  rcases lt_trichotomy a b with hlt | rfl | hgt
  · rw [compare_lt_iff_lt.mpr hlt, compare_gt_iff_gt.mpr (neg_lt_neg hlt)]
    rfl
  · rw [compare_eq_iff_eq.mpr rfl, compare_eq_iff_eq.mpr rfl]
    rfl
  · rw [compare_gt_iff_gt.mpr hgt, compare_lt_iff_lt.mpr (neg_lt_neg hgt)]
    rfl

/-- **The model compares rational numbers** (`signedValue`), one case for each sign and each zero. -/
theorem compare_unpacked (h : Canonical coefficient exponent)
    (h' : Canonical coefficient' exponent') :
    (unpacked negative coefficient exponent).compare (unpacked negative' coefficient' exponent') =
      some (compare (signedValue negative (coefficient * 2 ^ exponent))
        (signedValue negative' (coefficient' * 2 ^ exponent'))) := by
  unfold unpacked
  by_cases hzero : coefficient = 0
  · rw [dif_pos hzero, hzero, Nat.cast_zero, zero_mul, signedValue_zero]
    by_cases hzero' : coefficient' = 0
    · rw [dif_pos hzero', hzero', Nat.cast_zero, zero_mul, signedValue_zero,
        compare_eq_iff_eq.mpr rfl]
      rfl
    · have hpos := value_pos hzero' exponent'
      rw [dif_neg hzero']
      cases negative' with
      | true =>
          have hlt : signedValue true (coefficient' * 2 ^ exponent') < 0 := neg_neg_of_pos hpos
          rw [compare_gt_iff_gt.mpr hlt]
          rfl
      | false =>
          have hlt : 0 < signedValue false (coefficient' * 2 ^ exponent') := hpos
          rw [compare_lt_iff_lt.mpr hlt]
          rfl
  · have hpos := value_pos hzero exponent
    rw [dif_neg hzero]
    by_cases hzero' : coefficient' = 0
    · rw [dif_pos hzero', hzero', Nat.cast_zero, zero_mul, signedValue_zero]
      cases negative with
      | true =>
          have hlt : signedValue true (coefficient * 2 ^ exponent) < 0 := neg_neg_of_pos hpos
          rw [compare_lt_iff_lt.mpr hlt]
          rfl
      | false =>
          have hlt : 0 < signedValue false (coefficient * 2 ^ exponent) := hpos
          rw [compare_gt_iff_gt.mpr hlt]
          rfl
    · have hpos' := value_pos hzero' exponent'
      rw [dif_neg hzero']
      -- with one sign the magnitudes decide, with two the signs do
      cases negative with
      | true =>
          cases negative' with
          | true =>
              have hswap : compare (signedValue true (coefficient * 2 ^ exponent))
                  (signedValue true (coefficient' * 2 ^ exponent')) = _ := compare_neg_neg _ _
              rw [hswap, ← h.compare_eq h']
              rfl
          | false =>
              have hlt : signedValue true (coefficient * 2 ^ exponent) <
                  signedValue false (coefficient' * 2 ^ exponent') :=
                lt_trans (neg_neg_of_pos hpos) hpos'
              rw [compare_lt_iff_lt.mpr hlt]
              rfl
      | false =>
          cases negative' with
          | true =>
              have hlt : signedValue true (coefficient' * 2 ^ exponent') <
                  signedValue false (coefficient * 2 ^ exponent) :=
                lt_trans (neg_neg_of_pos hpos') hpos
              rw [compare_gt_iff_gt.mpr hlt]
              rfl
          | false =>
              show some ((compare exponent exponent').then (compare coefficient coefficient')) = _
              rw [h.compare_eq h']
              rfl

theorem compare_eq (hx : x.isFinite = true) (hy : y.isFinite = true) :
    x.toModel.unpack.compare y.toModel.unpack = some (compare (rational x) (rational y)) := by
  obtain ⟨negative, coefficient, exponent, hx⟩ := isFinite_iff_ofFloat.mp hx
  obtain ⟨negative', coefficient', exponent', hy⟩ := isFinite_iff_ofFloat.mp hy
  rw [unpack_eq hx, unpack_eq hy, rational_of_ofFloat hx, rational_of_ofFloat hy]
  exact compare_unpacked (ofFloat_eq_finite_iff.mp hx).1 (ofFloat_eq_finite_iff.mp hy).1

/-- **Finite numbers are compared as rational numbers** (`rational`). -/
theorem lt_iff (hx : x.isFinite = true) (hy : y.isFinite = true) :
    x < y ↔ rational x < rational y := by
  have hmodel : x < y ↔ x.toModel.unpack.compare y.toModel.unpack = some .lt :=
    decide_eq_true_iff.trans beq_iff_eq
  rw [hmodel, compare_eq hx hy, Option.some.injEq, compare_lt_iff_lt]

theorem le_iff (hx : x.isFinite = true) (hy : y.isFinite = true) :
    x ≤ y ↔ rational x ≤ rational y := by
  have hmodel : x ≤ y ↔ (x.toModel.unpack.compare y.toModel.unpack).any (·.isLE) = true :=
    decide_eq_true_iff
  rw [hmodel, compare_eq hx hy, Option.any_some, Ordering.isLE_iff_ne_gt, compare_gt_iff_gt,
    not_lt]

theorem beq_iff (hx : x.isFinite = true) (hy : y.isFinite = true) :
    (x == y) = true ↔ rational x = rational y := by
  have hmodel : (x == y) = true ↔ x.toModel.unpack.compare y.toModel.unpack = some .eq := by
    show (x.toModel.unpack.compare y.toModel.unpack == some .eq) = true ↔ _
    exact beq_iff_eq
  rw [hmodel, compare_eq hx hy, Option.some.injEq, compare_eq_iff_eq]

/-! ## Signs -/

theorem toNat_toBits_neg (h : x.isFinite = true) :
    (-x).toBits.toNat % 2 ^ 63 = x.toBits.toNat % 2 ^ 63 ∧
      (2 ^ 63 ≤ (-x).toBits.toNat ↔ ¬2 ^ 63 ≤ x.toBits.toNat) := by
  have hparts := packComponents_unpack (pattern x)
  have hx := congrArg BitVec.toNat hparts
  have hneg := congrArg BitVec.toNat (pattern_neg h)
  rw [toNat_packComponents, toNat_pattern] at hx hneg
  have he := (unpackExponent (pattern x)).isLt
  have hm := (unpackMantissa (pattern x)).isLt
  cases hsign : Sign.ofBitVec (unpackSign (pattern x)) with
  | negative =>
      rw [hsign] at hx hneg
      have hone : Sign.negative.toBitVec.toNat = 1 := rfl
      have hzero : (-Sign.negative).toBitVec.toNat = 0 := rfl
      rw [hone] at hx
      rw [hzero] at hneg
      omega
  | positive =>
      rw [hsign] at hx hneg
      have hzero : Sign.positive.toBitVec.toNat = 0 := rfl
      have hone : (-Sign.positive).toBitVec.toNat = 1 := rfl
      rw [hzero] at hx
      rw [hone] at hneg
      omega

/-- There is one infinite number for each sign. -/
theorem eq_infinity (h : ofFloat x = .infinite negative) : x = infinity negative := by
  have hbound := x.toBits.toNat_lt
  have hinfinity := infinityBits_eq
  have hpattern : x.toBits.toNat = signBits negative + infinityBits := by
    unfold ofFloat at h
    simp only [Nat.pow_eq] at h
    split at h
    · split at h
      · exact (decide_eq_iff_signBits (by omega) (by omega) hbound).mp (Binary64.infinite.inj h)
      · exact absurd h (by simp)
    · split at h <;> exact absurd h (by simp)
  refine Float.toBits_inj.mp (UInt64.toNat_inj.mp (hpattern.trans ?_))
  cases negative <;> decide +kernel

/-- Changing the sign changes the sign and nothing else. -/
theorem ofFloat_neg (h : ofFloat x = .finite negative coefficient exponent) :
    ofFloat (-x) = .finite (!negative) coefficient exponent := by
  obtain ⟨hcanonical, hle, hbits⟩ := ofFloat_eq_finite_iff.mp h
  obtain ⟨hlow, hhigh⟩ := toNat_toBits_neg (isFinite_of_ofFloat h)
  have hlt := hcanonical.coefficient_lt
  have hleast : leastExponent = -1074 := rfl
  have hbound : (-x).toBits.toNat < 2 ^ 64 := (-x).toBits.toNat_lt
  refine ofFloat_eq_finite_iff.mpr ⟨hcanonical, hle, ?_⟩
  unfold unsignedBits at hbits ⊢
  rw [hbits] at hlow hhigh
  cases negative with
  | true =>
      have hset : signBits true = 2 ^ 63 := rfl
      have hclear : signBits (!true) = 0 := rfl
      rw [hset] at hlow hhigh
      rw [hclear]
      omega
  | false =>
      have hclear : signBits false = 0 := rfl
      have hset : signBits (!false) = 2 ^ 63 := rfl
      rw [hclear] at hlow hhigh
      rw [hset]
      omega

theorem rational_neg (h : x.isFinite = true) : rational (-x) = -rational x := by
  obtain ⟨negative, coefficient, exponent, hx⟩ := isFinite_iff_ofFloat.mp h
  rw [rational_of_ofFloat hx, rational_of_ofFloat (ofFloat_neg hx)]
  cases negative with
  | true => exact (neg_neg _).symm
  | false => rfl

/-- To drop the sign of a negative number is to change it. -/
theorem abs_eq_neg (h : ofFloat x = .finite true coefficient exponent) : x.abs = -x := by
  apply eq_of_pattern_eq
  have habs : pattern x.abs = UnpackedFloat.pack Format.binary64 x.toModel.unpack.abs := rfl
  have hneg : pattern (-x) = UnpackedFloat.pack Format.binary64 x.toModel.unpack.neg := rfl
  rw [habs, hneg, unpack_eq h]
  unfold unpacked
  by_cases hzero : coefficient = 0
  · rw [dif_pos hzero]
    rfl
  · rw [dif_neg hzero]
    rfl

/-- Dropping the sign drops the sign and nothing else. -/
theorem ofFloat_abs (h : ofFloat x = .finite negative coefficient exponent) :
    ofFloat x.abs = .finite false coefficient exponent := by
  cases negative with
  | true =>
      rw [abs_eq_neg h]
      exact ofFloat_neg h
  | false =>
      rw [abs_eq h]
      exact h

end

end Calculator.Binary64
