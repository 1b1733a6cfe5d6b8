import Calculator.Proofs.Number.Overflow

/-!
# `Proofs.Number.Reading` — what a setting says

A setting is a text. As a count it is read if it has the digits of a number that fits, perhaps with a plus
sign. As a number it may be infinite, and there are two ways to this: a word says so, or the digits denote a
value beyond all numbers. What is infinite is compared as well, and each infinity is beyond its own end of
the order.

## Contents

* `Binary64.finite_or_of_lt` — what can be less than something
* `Decimal.toFloat_spec` — decimals that are numbers
* `SaysInfinite`, `readNumeral?_eq_infinity_iff` — texts that are infinite
* `readNatural?_eq_some_iff` — texts that are counts
-/

open Float.Model Float.Model.UnpackedFloat

namespace Calculator

namespace Binary64

/-! ## What is not finite -/

section

variable {x y : Float}

theorem unpack_of_notANumber (h : ofFloat x = .notANumber) : x.toModel.unpack = .notANumber := by
  unfold ofFloat at h
  simp only [Nat.pow_eq] at h
  have hones : x.toBits.toNat / 2 ^ 52 % 2 ^ 11 = 2047 ∧ ¬x.toBits.toNat % 2 ^ 52 = 0 := by
    split at h
    · rename_i hones
      split at h
      · contradiction
      · rename_i hzero
        exact ⟨hones, hzero⟩
    · split at h <;> contradiction
  show UnpackedFloat.unpack Format.binary64 (pattern x) = _
  unfold UnpackedFloat.unpack
  simp only
  rw [if_pos (unpackExponent_eq_ones_iff.mpr hones.1), if_neg (mt unpackMantissa_eq_zero_iff.mp hones.2)]

theorem unpack_infinity (negative : Bool) :
    (infinity negative).toModel.unpack = .infinity (modelSign negative) := by
  cases negative <;> rfl

/-- A value is a number, infinite, or neither. -/
theorem finite_or (x : Float) :
    x.isFinite = true ∨ (∃ negative, x = infinity negative) ∨ x.toModel.unpack = .notANumber := by
  cases hx : ofFloat x with
  | notANumber => exact .inr (.inr (unpack_of_notANumber hx))
  | infinite negative => exact .inr (.inl ⟨negative, eq_infinity hx⟩)
  | finite negative coefficient exponent => exact .inl (isFinite_of_ofFloat hx)

/-- Infinity is less than nothing, and nothing is less than negative infinity. -/
theorem compare_infinity_ne (u : UnpackedFloat) :
    (UnpackedFloat.infinity .positive).compare u ≠ some .lt ∧
      u.compare (.infinity .negative) ≠ some .lt := by
  cases u with
  | infinity sign => cases sign <;> decide
  | notANumber => exact ⟨by simp [UnpackedFloat.compare], by simp [UnpackedFloat.compare]⟩
  | zero sign => exact ⟨by simp [UnpackedFloat.compare], by simp [UnpackedFloat.compare]⟩
  | finite sign mantissa exponent =>
      exact ⟨by simp [UnpackedFloat.compare], by simp [UnpackedFloat.compare]⟩

/-- **What is less than something** is a number or negative `infinity`, and what it is less than is a number
or `infinity`. -/
theorem finite_or_of_lt (h : x < y) :
    (x.isFinite = true ∨ x = infinity true) ∧ (y.isFinite = true ∨ y = infinity false) := by
  have hmodel : x.toModel.unpack.compare y.toModel.unpack = some .lt :=
    (decide_eq_true_iff.trans beq_iff_eq).mp h
  constructor
  · rcases finite_or x with hfinite | ⟨negative, rfl⟩ | hnone
    · exact .inl hfinite
    · cases negative with
      | true => exact .inr rfl
      | false =>
          rw [unpack_infinity] at hmodel
          exact absurd hmodel (compare_infinity_ne _).1
    · rw [hnone] at hmodel
      exact absurd hmodel (by simp [UnpackedFloat.compare])
  · rcases finite_or y with hfinite | ⟨negative, rfl⟩ | hnone
    · exact .inl hfinite
    · cases negative with
      | true =>
          rw [unpack_infinity] at hmodel
          exact absurd hmodel (compare_infinity_ne _).2
      | false => exact .inr rfl
    · rw [hnone] at hmodel
      exact absurd hmodel (by cases x.toModel.unpack <;> simp [UnpackedFloat.compare])

theorem isFinite_infinity (negative : Bool) : (infinity negative).isFinite = false := by
  cases negative <;> decide +kernel

theorem infinity_inj {negative negative' : Bool} :
    infinity negative = infinity negative' ↔ negative = negative' := by
  cases negative <;> cases negative' <;> decide +kernel

end

end Binary64

/-! ## Decimals -/

namespace Decimal

open Binary64

variable {d : Decimal} {negative negative' : Bool}

theorem value_nonneg (d : Decimal) : 0 ≤ d.value :=
  mul_nonneg (Nat.cast_nonneg _) (zpow_pos (by norm_num) _).le

theorem value_pos (h : d.coefficient ≠ 0) : 0 < d.value :=
  lt_of_le_of_ne d.value_nonneg (value_ne_zero_iff.mpr h).symm

/-- Decimals from `10 ^ 310` on are beyond all numbers. -/
theorem overflow_le_of_size (h : d.coefficient ≠ 0) (hsize : 310 < d.size) : overflow ≤ d.value := by
  rw [size_eq h] at hsize
  have hpower : ((10 : Nat) : Rat) ^ (309 : Int) ≤ d.value :=
    (Int.zpow_le_iff_le_log (by decide) (value_pos h)).mpr (by omega)
  have hgreatestPower : 2 ^ 1024 < 10 ^ 309 := by decide +kernel
  have hgreatest : (2 : Rat) ^ (1024 : Int) < ((10 : Nat) : Rat) ^ (309 : Int) := by
    exact_mod_cast hgreatestPower
  exact (overflow_lt.trans (hgreatest.trans_le hpower)).le

/-- Decimals below `10 ^ -330` are not. -/
theorem lt_overflow_of_size (h : d.coefficient ≠ 0) (hsize : d.size < -330) : d.value < overflow := by
  rw [size_eq h] at hsize
  have hpower : d.value < ((10 : Nat) : Rat) ^ (0 : Int) :=
    (Int.lt_zpow_iff_log_lt (by decide) (value_pos h)).mpr (by omega)
  have hone : (1 : Rat) ≤ overflow :=
    (by norm_num : (1 : Rat) ≤ 2 ^ 54 - 1).trans
      (le_mul_of_one_le_right (by norm_num) (one_le_pow₀ one_le_two))
  exact (hpower.trans_eq (zpow_zero _)).trans_le hone

/-- **A decimal from `overflow` on** is read as an infinite number, and any other as a number. -/
theorem toFloat_spec (d : Decimal) (negative : Bool) :
    (d.value < overflow → (d.toFloat negative).isFinite = true) ∧
      (overflow ≤ d.value → d.toFloat negative = infinity negative) := by
  have hzero : (nearest negative (Ratio.ofNat 0)).isFinite = true := by
    cases negative <;> decide +kernel
  unfold toFloat
  by_cases hd : d.coefficient = 0
  · have hvalue : d.value = 0 := not_not.mp (mt value_ne_zero_iff.mp (not_not.mpr hd))
    rw [if_pos hd, hvalue]
    exact ⟨fun _ => hzero, fun hle => absurd overflow_pos hle.not_gt⟩
  rw [if_neg hd]
  by_cases hgreat : 310 < d.size
  · rw [if_pos hgreat]
    exact ⟨fun hlt => absurd (overflow_le_of_size hd hgreat) hlt.not_ge, fun _ => rfl⟩
  rw [if_neg hgreat]
  by_cases hsmall : d.size < -330
  · rw [if_pos hsmall]
    exact ⟨fun _ => hzero, fun hle => absurd (lt_overflow_of_size hd hsmall) hle.not_gt⟩
  rw [if_neg hsmall]
  -- between the bounds the exact value is rounded
  have hrounded := isRounded_nearest_signed negative d.toRatio
  rw [value_toRatio] at hrounded
  have habs := abs_signedValue negative d.value_nonneg
  refine ⟨fun hlt => hrounded.isFinite_iff.mpr (habs.trans_lt hlt), fun hle => ?_⟩
  rw [hrounded.eq_infinity (hle.trans_eq habs.symm), decide_signedValue_neg (overflow_pos.trans_le hle)]

theorem toFloat_eq_infinity_iff :
    d.toFloat negative = infinity negative' ↔ negative = negative' ∧ overflow ≤ d.value := by
  obtain ⟨hfinite, hinfinite⟩ := d.toFloat_spec negative
  rcases lt_or_ge d.value overflow with hlt | hle
  · refine iff_of_false (fun h => ?_) fun h => absurd hlt h.2.not_gt
    have hnot := isFinite_infinity negative'
    rw [← h, hfinite hlt] at hnot
    contradiction
  · rw [hinfinite hle, infinity_inj, and_iff_left hle]

end Decimal

/-! ## Texts -/

section

variable {text rest : List Char} {negative : Bool} {bits n : Nat} {c : Char}

/-- A decimal starts with a digit or a point. -/
theorem readDecimal?_cons (hdigit : c.isDigit = false) (hpoint : c ≠ '.') :
    readDecimal? (c :: rest) = none := by
  have hspan : spanDigits (c :: rest) = ([], c :: rest) := by
    simp [spanDigits, hdigit]
  unfold readDecimal?
  rw [hspan]
  simp only
  split
  · rename_i hparts
    exact absurd (List.cons.inj hparts).1 hpoint
  · exact if_pos ⟨trivial, rfl⟩

theorem toLower_of_isDigit (h : c.isDigit = true) : c.toLower = c := by grind [Char.toLower, Char.isDigit]

/-- What is not a number is no decimal. -/
theorem readDecimal?_of_nan (h : rest.map Char.toLower = ['n', 'a', 'n']) : readDecimal? rest = none := by
  cases rest with
  | nil => contradiction
  | cons c rest =>
      have hc : c.toLower = 'n' := (List.cons.inj h).1
      have hdigit : c.isDigit = false := by
        by_contra hdigit
        rw [Bool.not_eq_false] at hdigit
        rw [toLower_of_isDigit hdigit] at hc
        exact absurd (hc ▸ hdigit) (by decide)
      have hpoint : c ≠ '.' := by
        rintro rfl
        exact absurd hc (by decide)
      exact readDecimal?_cons hdigit hpoint

/-- A text that says an infinite number of some sign: after the sign stands a word for it, or a decimal that
is beyond all numbers. -/
def SaysInfinite (negative : Bool) (text : List Char) : Prop :=
  ∃ rest, takeSign text = (negative, rest) ∧
    ((rest.map Char.toLower = ['i', 'n', 'f'] ∨
        rest.map Char.toLower = ['i', 'n', 'f', 'i', 'n', 'i', 't', 'y']) ∨
      ∃ d, readDecimal? rest = some d ∧ Binary64.overflow ≤ d.value)

/-- **What `readNumeral?` reads as an infinite number** is what `SaysInfinite`. -/
theorem readNumeral?_eq_infinity_iff :
    readNumeral? text = some (Binary64.infinity negative) ↔ SaysInfinite negative text := by
  unfold readNumeral? SaysInfinite
  cases takeSign text with
  | mk sign rest =>
      simp only [Prod.mk.injEq]
      by_cases hword : rest.map Char.toLower = ['i', 'n', 'f'] ∨
          rest.map Char.toLower = ['i', 'n', 'f', 'i', 'n', 'i', 't', 'y']
      · rw [if_pos hword, Option.some.injEq, Binary64.infinity_inj]
        exact ⟨fun h => ⟨rest, ⟨h, rfl⟩, .inl hword⟩, fun ⟨_, ⟨h, _⟩, _⟩ => h⟩
      rw [if_neg hword]
      by_cases hnan : rest.map Char.toLower = ['n', 'a', 'n']
      · rw [if_pos hnan]
        refine iff_of_false ?_ ?_
        · cases negative <;> decide +kernel
        · rintro ⟨_, ⟨-, rfl⟩, hword' | ⟨d, hread, -⟩⟩
          · exact hword hword'
          · rw [readDecimal?_of_nan hnan] at hread
            contradiction
      rw [if_neg hnan, Option.map_eq_some_iff]
      constructor
      · rintro ⟨d, hread, hvalue⟩
        obtain ⟨rfl, hle⟩ := Decimal.toFloat_eq_infinity_iff.mp hvalue
        exact ⟨rest, ⟨rfl, rfl⟩, .inr ⟨d, hread, hle⟩⟩
      · rintro ⟨_, ⟨rfl, rfl⟩, hword' | ⟨d, hread, hle⟩⟩
        · exact absurd hword' hword
        · exact ⟨d, hread, Decimal.toFloat_eq_infinity_iff.mpr ⟨rfl, hle⟩⟩

/-- Reads what stands after the sign of a count. -/
def readDigits? (bits : Nat) (digits : List Char) : Option Nat :=
  if digits = [] ∨ !digits.all Char.isDigit then none
  else
    let value := Nat.ofDigitChars 10 digits 0
    if value < Nat.pow 2 bits then some value else none

theorem readDigits?_eq_some_iff {digits : List Char} :
    readDigits? bits digits = some n ↔
      n < 2 ^ bits ∧ digits ≠ [] ∧ (∀ c ∈ digits, c.isDigit = true) ∧ Nat.ofDigitChars 10 digits 0 = n := by
  unfold readDigits?
  simp only
  split
  · rename_i hbad
    refine iff_of_false (by simp) fun ⟨_, hne, hdigits, _⟩ => ?_
    rcases hbad with hnil | hother
    · exact hne hnil
    · rw [List.all_eq_true.mpr hdigits] at hother
      contradiction
  · rename_i hgood
    rw [not_or, Bool.not_eq_true', Bool.not_eq_false, List.all_eq_true] at hgood
    split
    · rename_i hlt
      rw [Option.some.injEq]
      exact ⟨fun h => ⟨h ▸ hlt, hgood.1, hgood.2, h⟩, fun h => h.2.2.2⟩
    · rename_i hge
      exact iff_of_false (by simp) fun ⟨hlt, _, _, heq⟩ => hge (heq ▸ hlt)

theorem readNatural?_plus (digits : List Char) :
    readNatural? bits ('+' :: digits) = readDigits? bits digits := rfl

theorem readNatural?_of_ne (h : ∀ rest, text ≠ '+' :: rest) : readNatural? bits text = readDigits? bits text := by
  simp only [readNatural?, readDigits?]

/-- **What `readNatural?` reads as a count**: the digits of a number that fits its `bits`, perhaps with a plus
sign. -/
theorem readNatural?_eq_some_iff :
    readNatural? bits text = some n ↔ n < 2 ^ bits ∧ ∃ plus digits, text = plus ++ digits ∧
      (plus = [] ∨ plus = ['+']) ∧ digits ≠ [] ∧ (∀ c ∈ digits, c.isDigit = true) ∧
      Nat.ofDigitChars 10 digits 0 = n := by
  constructor
  · intro h
    by_cases hplus : ∃ rest, text = '+' :: rest
    · obtain ⟨digits, rfl⟩ := hplus
      rw [readNatural?_plus, readDigits?_eq_some_iff] at h
      exact ⟨h.1, ['+'], digits, rfl, .inr rfl, h.2⟩
    · rw [readNatural?_of_ne (not_exists.mp hplus), readDigits?_eq_some_iff] at h
      exact ⟨h.1, [], text, rfl, .inl rfl, h.2⟩
  · rintro ⟨hlt, plus, digits, rfl, hplus, hdigits⟩
    have hread := readDigits?_eq_some_iff.mpr ⟨hlt, hdigits⟩
    rcases hplus with rfl | rfl
    · rw [List.nil_append, readNatural?_of_ne, hread]
      -- a digit is no sign
      rintro rest rfl
      exact absurd (hdigits.2.1 '+' List.mem_cons_self) (by decide)
    · exact (readNatural?_plus digits).trans hread

end

end Calculator
