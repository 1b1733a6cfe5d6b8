import Mathlib

/-!
# `Proofs.Number.Negation` — changing the sign of a number

Sixty-four bits hold a number as a sign, an exponent and a mantissa, and the exponent of nothing but
ones is kept for what is not finite. Arithmetic takes such a pattern apart, computes, and puts a pattern
together again. When nothing but the sign is computed, the pattern that comes out differs in its sign and
nowhere else: so changing the sign of a finite number twice gives the number back, and a finite number
stays finite.

## Contents

* `packComponents_unpack` — a pattern is put together from its parts
* `pack_neg_unpack` — changing the sign, on patterns
* `pattern`, `isFinite_neg`, `neg_neg_of_isFinite` — changing the sign, on numbers
-/

open Float.Model Float.Model.UnpackedFloat

namespace Calculator.Binary64

/-! ## The parts of a pattern -/

/-- The pattern of a number in sixty-four bits. -/
abbrev Pattern := BitVec Format.binary64.numBits

theorem toNat_packComponents (sign : Sign) (exponent : BitVec 11) (mantissa : BitVec 52) :
    (packComponents Format.binary64 sign exponent mantissa).toNat =
      sign.toBitVec.toNat * 2 ^ 63 + exponent.toNat * 2 ^ 52 + mantissa.toNat := by
  have he := exponent.isLt
  have hm := mantissa.isLt
  unfold packComponents
  rw [BitVec.toNat_append, BitVec.toNat_append, ← Nat.shiftLeft_add_eq_or_of_lt hm,
    ← Nat.shiftLeft_add_eq_or_of_lt he]
  simp only [Nat.shiftLeft_eq]
  omega

theorem toNat_unpackSign (b : Pattern) : (unpackSign b).toNat = b.toNat / 2 ^ 63 := by
  have hb := b.isLt
  simp only [unpackSign, BitVec.toNat_cast, BitVec.extractLsb_toNat, Nat.shiftRight_eq_div_pow]
  simp only [Format.numBits] at hb ⊢
  omega

theorem toNat_unpackExponent (b : Pattern) :
    (unpackExponent b).toNat = b.toNat / 2 ^ 52 % 2 ^ 11 := by
  simp only [unpackExponent, BitVec.toNat_cast, BitVec.extractLsb_toNat, Nat.shiftRight_eq_div_pow]

theorem toNat_unpackMantissa (b : Pattern) : (unpackMantissa b).toNat = b.toNat % 2 ^ 52 := by
  simp only [unpackMantissa, BitVec.toNat_cast, BitVec.extractLsb_toNat, Nat.shiftRight_zero]

theorem toBitVec_ofBitVec (b : BitVec 1) : (Sign.ofBitVec b).toBitVec = b := by
  revert b
  decide

theorem packComponents_unpack (b : Pattern) :
    packComponents Format.binary64 (Sign.ofBitVec (unpackSign b)) (unpackExponent b)
      (unpackMantissa b) = b := by
  apply BitVec.eq_of_toNat_eq
  rw [toNat_packComponents, toBitVec_ofBitVec, toNat_unpackSign, toNat_unpackExponent,
    toNat_unpackMantissa]
  have hb := b.isLt
  simp only [Format.numBits] at hb
  omega

theorem unpackSign_packComponents (sign : Sign) (exponent : BitVec 11) (mantissa : BitVec 52) :
    Sign.ofBitVec (unpackSign (packComponents Format.binary64 sign exponent mantissa)) = sign := by
  have hs : unpackSign (packComponents Format.binary64 sign exponent mantissa) = sign.toBitVec := by
    apply BitVec.eq_of_toNat_eq
    rw [toNat_unpackSign, toNat_packComponents]
    have he := exponent.isLt
    have hm := mantissa.isLt
    omega
  rw [hs]
  cases sign <;> rfl

/-! ## Changing the sign of a pattern -/

/-- Whether a pattern stands for a finite number. -/
theorem isFinite_unpack (b : Pattern) :
    (UnpackedFloat.unpack Format.binary64 b).isFinite = true ↔ unpackExponent b ≠ -1#11 := by
  unfold UnpackedFloat.unpack
  simp only
  by_cases hexp : unpackExponent b = -1#11
  · rw [if_pos hexp]
    split <;> simp only [UnpackedFloat.isFinite, Bool.false_eq_true, ne_eq, hexp, not_true_eq_false]
  · rw [if_neg hexp]
    split
    · split <;> simp only [UnpackedFloat.isFinite, ne_eq, hexp, not_false_eq_true]
    · simp only [UnpackedFloat.isFinite, ne_eq, hexp, not_false_eq_true]

theorem pack_subnormal (sign : Sign) (mantissa : BitVec 52) (hpos : 0 < mantissa.toNat) :
    UnpackedFloat.pack Format.binary64 (.finite sign mantissa.toNat (-1074) hpos) =
      packComponents Format.binary64 sign 0#11 mantissa := by
  -- fewer bits than a number with an implicit bit has
  have hlog : mantissa.toNat.log2 < 52 := (Nat.log2_lt (by omega)).mpr mantissa.isLt
  have hbits : ¬mantissa.toNat.log2 + 1 = Format.binary64.mantissaBits := by
    rw [show Format.binary64.mantissaBits = 53 from rfl]
    omega
  unfold UnpackedFloat.pack
  simp only
  rw [if_neg (by decide), if_neg hbits, BitVec.ofNat_toNat, BitVec.setWidth_eq]

theorem pack_normal (sign : Sign) (exponent : BitVec 11) (mantissa : BitVec 52)
    (hone : exponent ≠ -1#11) (hpos : 0 < (1#1 ++ mantissa).toNat) :
    UnpackedFloat.pack Format.binary64
        (.finite sign (1#1 ++ mantissa).toNat ((exponent.toNat : Int) - 1075) hpos) =
      packComponents Format.binary64 sign exponent mantissa := by
  have hm := mantissa.isLt
  have he := exponent.isLt
  have hone' : exponent.toNat ≠ 2047 := fun h => hone (BitVec.eq_of_toNat_eq h)
  -- the implicit bit stands in front of the mantissa, and packing cuts it off again
  have hnat : (1#1 ++ mantissa).toNat = 2 ^ 52 + mantissa.toNat := by
    rw [BitVec.toNat_append, ← Nat.shiftLeft_add_eq_or_of_lt hm]
    rfl
  have hlog : (1#1 ++ mantissa).toNat.log2 = 52 := by
    rw [hnat, Nat.log2_eq_iff (by omega)]
    omega
  have hbiased : ((exponent.toNat : Int) - 1075 + Format.binary64.exponentBias +
      Format.binary64.mantissaBitsWithoutImplicit).toNat = exponent.toNat := by
    rw [show Format.binary64.exponentBias = 1023 from rfl]
    simp only
    omega
  unfold UnpackedFloat.pack
  simp only
  rw [hbiased, hlog, if_neg (by omega), if_pos (by rfl), BitVec.ofNat_toNat, BitVec.setWidth_eq]
  have hmant : BitVec.ofNat 52 (1#1 ++ mantissa).toNat = mantissa := by
    apply BitVec.eq_of_toNat_eq
    rw [hnat, BitVec.toNat_ofNat, Nat.add_mod_left, Nat.mod_eq_of_lt hm]
  rw [hmant]

/-- Changing the sign of a finite number changes the sign of its pattern and nothing else. -/
theorem pack_neg_unpack (b : Pattern) (h : unpackExponent b ≠ -1#11) :
    UnpackedFloat.pack Format.binary64 (UnpackedFloat.unpack Format.binary64 b).neg =
      packComponents Format.binary64 (-Sign.ofBitVec (unpackSign b)) (unpackExponent b)
        (unpackMantissa b) := by
  unfold UnpackedFloat.unpack
  simp only
  rw [if_neg h]
  by_cases hzero : unpackExponent b = 0#11
  · rw [if_pos hzero, hzero]
    by_cases hmant : unpackMantissa b = 0#52
    · rw [dif_pos hmant, hmant]
      rfl
    · rw [dif_neg hmant]
      exact pack_subnormal _ _ _
  · rw [if_neg hzero]
    exact pack_normal _ _ _ h _

/-! ## Changing the sign of a number -/

/-- The pattern of a number. -/
def pattern (v : Float) : Pattern := v.toModel.toBits.toBitVec

theorem eq_of_pattern_eq {v w : Float} (h : pattern v = pattern w) : v = w := by
  -- a number is its bits with a proof that they are valid
  obtain ⟨⟨bits, hv⟩⟩ := v
  obtain ⟨⟨bits', hw⟩⟩ := w
  have hbits : bits = bits' := UInt64.toBitVec_inj.mp h
  subst hbits
  rfl

theorem isFinite_iff {v : Float} : v.isFinite = true ↔ unpackExponent (pattern v) ≠ -1#11 :=
  isFinite_unpack (pattern v)

theorem pattern_neg {v : Float} (h : v.isFinite = true) :
    pattern (-v) = packComponents Format.binary64 (-Sign.ofBitVec (unpackSign (pattern v)))
      (unpackExponent (pattern v)) (unpackMantissa (pattern v)) := by
  have hpack : pattern (-v) =
      UnpackedFloat.pack Format.binary64 (UnpackedFloat.unpack Format.binary64 (pattern v)).neg := by
    unfold pattern
    rfl
  rw [hpack]
  exact pack_neg_unpack _ (isFinite_iff.mp h)

theorem isFinite_neg {v : Float} (h : v.isFinite = true) : (-v).isFinite = true := by
  rw [isFinite_iff, pattern_neg h, unpackExponent_packComponents]
  exact isFinite_iff.mp h

theorem neg_neg_sign (sign : Sign) : - -sign = sign := by
  cases sign <;> rfl

theorem neg_neg_of_isFinite {v : Float} (h : v.isFinite = true) : - -v = v := by
  apply eq_of_pattern_eq
  rw [pattern_neg (isFinite_neg h), pattern_neg h, unpackSign_packComponents,
    unpackExponent_packComponents, unpackMantissa_packComponents, neg_neg_sign,
    packComponents_unpack]

end Calculator.Binary64
