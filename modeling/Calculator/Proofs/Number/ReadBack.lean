import Calculator.Proofs.Number.Magnitude
import Calculator.Proofs.Number.Negation

/-!
# `Proofs.Number.ReadBack` — the plain text of a number is read as that number

The plain text of a number shows the fewest digits that are read as the number again. They are found by
trying, and if none of the short ones served, all digits of the number would be shown: so whatever is
shown has been read back, or denotes the number exactly. Laying the digits out, with zeros in front of
them or behind and a point among them, writes down another decimal of the same value, and decimals of one
value are read as one number. What is shown is therefore the number, for every number that is not
negative and not infinite; and it is a text of digits with at most one point.

No text that is read is negative or not a number; it may be too great, and then it is read as infinity.

## Contents

* `Binary64.toNat_toBits_ofBits`, `Binary64.finite_spec` — patterns
* `Binary64.nearest_magnitude` — a number is the nearest to its own value
* `Decimal.toFloat_cases`, `Binary64.isInf_iff` — what is read
* `Decimal.toFloat_shortest` — the digits that are found
* `SpelledBy`, `SpelledBy.readDecimal?` — digits with at most one point
* `plainNumeral_spelled`, `plainNumeral_infinity` — the plain text of a number
-/

open Float.Model Float.Model.UnpackedFloat

namespace Calculator

namespace Binary64

variable {x : Float} {negative : Bool} {coefficient n : Nat} {exponent : Int}

/-! ## Patterns -/

theorem infinityBits_eq : infinityBits = 2047 * 2 ^ 52 := rfl

/-- The patterns of infinity and of what is below it are kept as they are, with either sign. -/
theorem toNat_toBits_ofBits_signed (h : n ≤ infinityBits) (negative : Bool) :
    (Float.ofBits (UInt64.ofNat ((if negative then Nat.pow 2 63 else 0) + n))).toBits.toNat =
      (if negative then Nat.pow 2 63 else 0) + n := by
  rw [infinityBits_eq] at h
  generalize hm : (if negative then Nat.pow 2 63 else 0) + n = m
  have hlow : m < 2 ^ 64 ∧ m % 2 ^ 63 = n := by
    cases negative with
    | true =>
        have hset : 2 ^ 63 + n = m := hm
        omega
    | false =>
        have hclear : 0 + n = m := hm
        omega
  have hn : (UInt64.ofNat m).toNat = m := by
    rw [UInt64.toNat_ofNat', Nat.mod_eq_of_lt hlow.1]
  let b : Pattern := (UInt64.ofNat m).toBitVec
  have hb : b.toNat = m := hn
  -- the exponent of nothing but ones comes with no mantissa here
  have hnumber : isNaNBits b = false := by
    simp only [isNaNBits, decide_eq_false_iff_not, not_and, not_not]
    intro hexponent
    have hfield : (unpackExponent b).toNat = 2047 := congrArg BitVec.toNat hexponent
    rw [toNat_unpackExponent, hb] at hfield
    apply BitVec.eq_of_toNat_eq
    rw [toNat_unpackMantissa, hb]
    show m % 2 ^ 52 = 0
    omega
  have hpack : (Float.ofBits (UInt64.ofNat m)).toBits.toBitVec =
      UnpackedFloat.pack Format.binary64 (UnpackedFloat.unpack Format.binary64 b) := rfl
  rw [pack_unpack, if_neg (by simp [hnumber])] at hpack
  exact (congrArg BitVec.toNat hpack).trans hb

theorem toNat_toBits_ofBits (h : n ≤ infinityBits) :
    (Float.ofBits (UInt64.ofNat n)).toBits.toNat = n := by
  have hsigned := toNat_toBits_ofBits_signed h false
  rwa [if_neg Bool.false_ne_true, Nat.zero_add] at hsigned

/-- The coefficient and the exponent of a number that is not negative make up its pattern. -/
theorem finite_spec (h : ofFloat x = .finite false coefficient exponent) :
    Canonical coefficient exponent ∧ exponent ≤ 971 ∧
      x.toBits.toNat = (exponent - leastExponent).toNat * 2 ^ 52 + coefficient := by
  have hleast : leastExponent = -1074 := rfl
  unfold ofFloat at h
  simp only [Nat.pow_eq] at h
  split at h
  · split at h <;> exact absurd h (by simp)
  · split at h
    · simp only [Binary64.finite.injEq, decide_eq_false_iff_not] at h
      obtain ⟨hsign, rfl, rfl⟩ := h
      exact ⟨⟨by omega, by omega, .inl rfl⟩, by omega, by omega⟩
    · simp only [Binary64.finite.injEq, decide_eq_false_iff_not] at h
      obtain ⟨hsign, rfl, rfl⟩ := h
      exact ⟨⟨by omega, by omega, .inr (by omega)⟩, by omega, by omega⟩

/-- **A number is the `nearest` to its own `magnitude`.** -/
theorem nearest_magnitude (h : ofFloat x = .finite false coefficient exponent) :
    nearest false (magnitude coefficient exponent) = x := by
  obtain ⟨hcanonical, hexponent, hbits⟩ := finite_spec h
  have hleast := hcanonical.least_le
  have hlt := hcanonical.coefficient_lt
  have hle : x.toBits.toNat ≤ infinityBits := by
    rw [hbits, infinityBits_eq]
    simp only [leastExponent] at hleast ⊢
    omega
  rw [nearest, if_neg Bool.false_ne_true, Nat.zero_add, nearestBits_magnitude hcanonical, ← hbits,
    Nat.min_eq_left hle, UInt64.ofNat_toNat, Float.ofBits_toBits]

/-- A pattern that is not above that of infinity belongs to infinity or to a number that is not
negative. -/
theorem ofFloat_of_le (h : x.toBits.toNat ≤ infinityBits) :
    ofFloat x = .infinite false ∨
      ∃ coefficient exponent, ofFloat x = .finite false coefficient exponent := by
  rw [infinityBits_eq] at h
  have hsign : decide (2 ^ 63 ≤ x.toBits.toNat) = false := by
    rw [decide_eq_false_iff_not]
    omega
  unfold ofFloat
  simp only [Nat.pow_eq, hsign]
  split
  · rw [if_pos (by omega)]
    exact .inl rfl
  · split
    · exact .inr ⟨_, _, rfl⟩
    · exact .inr ⟨_, _, rfl⟩

theorem toNat_pattern (x : Float) : (pattern x).toNat = x.toBits.toNat := rfl

theorem unpackExponent_eq_ones_iff :
    unpackExponent (pattern x) = -1#11 ↔ x.toBits.toNat / 2 ^ 52 % 2 ^ 11 = 2047 := by
  rw [← BitVec.toNat_inj, toNat_unpackExponent, toNat_pattern]
  exact Iff.rfl

theorem unpackMantissa_eq_zero_iff :
    unpackMantissa (pattern x) = 0#52 ↔ x.toBits.toNat % 2 ^ 52 = 0 := by
  rw [← BitVec.toNat_inj, toNat_unpackMantissa, toNat_pattern]
  exact Iff.rfl

/-- Whether a pattern stands for infinity. -/
theorem isInf_unpack (b : Pattern) :
    (UnpackedFloat.unpack Format.binary64 b).isInf = true ↔
      unpackExponent b = -1#11 ∧ unpackMantissa b = 0#52 := by
  unfold UnpackedFloat.unpack
  simp only
  by_cases hexponent : unpackExponent b = -1#11
  · rw [if_pos hexponent]
    by_cases hmantissa : unpackMantissa b = 0#52
    · rw [if_pos hmantissa]
      exact ⟨fun _ => ⟨hexponent, hmantissa⟩, fun _ => rfl⟩
    · rw [if_neg hmantissa]
      exact ⟨fun h => absurd h (by simp [UnpackedFloat.isInf]), fun h => absurd h.2 hmantissa⟩
  · rw [if_neg hexponent]
    refine ⟨fun h => ?_, fun h => absurd h.1 hexponent⟩
    split at h
    · split at h <;> exact absurd h (by simp [UnpackedFloat.isInf])
    · exact absurd h (by simp [UnpackedFloat.isInf])

/-- A number is infinite if its view is. -/
theorem isInf_iff : x.isInf = true ↔ ∃ negative, ofFloat x = .infinite negative := by
  have hview : x.isInf = (UnpackedFloat.unpack Format.binary64 (pattern x)).isInf := rfl
  rw [hview, isInf_unpack, unpackExponent_eq_ones_iff, unpackMantissa_eq_zero_iff]
  unfold ofFloat
  simp only [Nat.pow_eq]
  constructor
  · rintro ⟨hones, hzero⟩
    rw [if_pos hones, if_pos hzero]
    exact ⟨_, rfl⟩
  · rintro ⟨negative, hinfinite⟩
    split at hinfinite
    · rename_i hones
      split at hinfinite
      · rename_i hzero
        exact ⟨hones, hzero⟩
      · exact absurd hinfinite (by simp)
    · split at hinfinite <;> exact absurd hinfinite (by simp)

/-- The sign of a number that is not negative can be dropped. -/
theorem abs_eq (h : ofFloat x = .finite false coefficient exponent) : x.abs = x := by
  have hle : x.toBits.toNat < 2 ^ 63 := by
    obtain ⟨hcanonical, hexponent, hbits⟩ := finite_spec h
    have hlt := hcanonical.coefficient_lt
    have hleast : leastExponent = -1074 := rfl
    omega
  have hsign : Sign.ofBitVec (unpackSign (pattern x)) = .positive := by
    have hzero : unpackSign (pattern x) = 0#1 := by
      rw [← BitVec.toNat_inj, toNat_unpackSign, toNat_pattern]
      exact Nat.div_eq_of_lt hle
    rw [hzero]
    rfl
  have habs : (UnpackedFloat.unpack Format.binary64 (pattern x)).abs =
      UnpackedFloat.unpack Format.binary64 (pattern x) := by
    unfold UnpackedFloat.unpack
    simp only [hsign]
    split
    · split <;> rfl
    · split
      · split <;> rfl
      · rfl
  apply eq_of_pattern_eq
  have hpack : pattern x.abs = UnpackedFloat.pack Format.binary64
      (UnpackedFloat.unpack Format.binary64 (pattern x)).abs := rfl
  rw [hpack, habs]
  exact pack_unpack_of_valid x.toModel.valid

/-! ## What is read -/

theorem toNat_toBits_nearest (r : Ratio) : (nearest false r).toBits.toNat = nearestBits r := by
  rw [nearest, if_neg Bool.false_ne_true, Nat.zero_add]
  exact toNat_toBits_ofBits (nearestBits_le r)

theorem toNat_toBits_infinity : (infinity false).toBits.toNat = infinityBits := by
  rw [infinity, if_neg Bool.false_ne_true, Nat.zero_add]
  exact toNat_toBits_ofBits le_rfl

end Binary64

namespace Decimal

variable {x : Float} {coefficient : Nat} {exponent : Int} {d : Decimal}

theorem toNat_toBits_toFloat_le (d : Decimal) :
    (d.toFloat false).toBits.toNat ≤ Binary64.infinityBits := by
  unfold toFloat
  split
  · rw [Binary64.toNat_toBits_nearest]
    exact Binary64.nearestBits_le _
  · split
    · rw [Binary64.toNat_toBits_infinity]
    · split <;> rw [Binary64.toNat_toBits_nearest] <;> exact Binary64.nearestBits_le _

/-- **What is read** by `Decimal.toFloat` is infinity or a number that is not negative. -/
theorem toFloat_cases (d : Decimal) :
    Binary64.ofFloat (d.toFloat false) = .infinite false ∨
      ∃ coefficient exponent, Binary64.ofFloat (d.toFloat false) = .finite false coefficient exponent :=
  Binary64.ofFloat_of_le d.toNat_toBits_toFloat_le

theorem toFloat_zero (h : d.coefficient = 0) :
    d.toFloat false = Binary64.nearest false (Ratio.ofNat 0) := if_pos h

/-! ## The digits that are found -/

theorem value_dropZero (d : Decimal) : d.dropZero.value = d.value := by
  unfold dropZero
  split
  · rename_i hten
    rw [value, value, hten, zpow_add₀ (by norm_num)]
    push_cast
    ring
  · rfl

theorem toFloat_of_readsBack (h : readsBack x d = true) : d.toFloat false = x :=
  Float.toBits_inj.mp (beq_iff_eq.mp h)

/-- **The digits that are found** by `shortest` are read as the number, whether a short decimal is one that
was tried or all digits are taken. -/
theorem toFloat_shortest (hx : Binary64.ofFloat x = .finite false coefficient exponent)
    (hcoefficient : coefficient ≠ 0) : (shortest x coefficient exponent).toFloat false = x := by
  have hfound : ∀ {d : Decimal},
      ((List.range 17).findSome? fun (n : Nat) =>
        (neighbours (Binary64.magnitude coefficient exponent)
          ((Binary64.magnitude coefficient exponent).log10 - (n : Int))).find? (readsBack x)) =
        some d → d.toFloat false = x := by
    intro d hd
    obtain ⟨n, -, hfind⟩ := List.exists_of_findSome?_eq_some hd
    exact toFloat_of_readsBack (List.find?_some hfind)
  unfold shortest
  simp only
  rw [toFloat_congr false (value_dropZero _)]
  cases hd : (List.range 17).findSome? fun (n : Nat) =>
      (neighbours (Binary64.magnitude coefficient exponent)
        ((Binary64.magnitude coefficient exponent).log10 - (n : Int))).find? (readsBack x) with
  | some d => exact hfound hd
  | none =>
      obtain ⟨hcanonical, hexponent, -⟩ := Binary64.finite_spec hx
      exact (toFloat_exact hcanonical hcoefficient hexponent).trans (Binary64.nearest_magnitude hx)

end Decimal

/-! ## Digits with a point -/

/-- A text spells digits before a point and digits behind it; where there are none behind it, there may
be no point either. -/
structure SpelledBy (text whole fraction : List Char) : Prop where
  whole_ne_nil : whole ≠ []
  whole_digits : ∀ c ∈ whole, c.isDigit = true
  fraction_digits : ∀ c ∈ fraction, c.isDigit = true
  text_eq : text = whole ∧ fraction = [] ∨ text = whole ++ '.' :: fraction

section

variable {text whole fraction rest : List Char} {x : Float} {coefficient : Nat} {exponent : Int}
  {d : Decimal}

/-- Digits end where something stands that is no digit. -/
theorem spanDigits_append (h : ∀ c ∈ whole, c.isDigit = true)
    (hrest : ∀ c ∈ rest.head?, c.isDigit = false) : spanDigits (whole ++ rest) = (whole, rest) := by
  unfold spanDigits
  have hhead : rest.takeWhile Char.isDigit = [] ∧ rest.dropWhile Char.isDigit = rest := by
    cases rest with
    | nil => exact ⟨rfl, rfl⟩
    | cons c rest =>
        have hc := hrest c rfl
        simp [hc]
  rw [List.takeWhile_append_of_pos h, List.dropWhile_append_of_pos h, hhead.1, hhead.2,
    List.append_nil]

theorem spanDigits_of_digits (h : ∀ c ∈ whole, c.isDigit = true) :
    spanDigits whole = (whole, []) := by
  have hspan := @spanDigits_append whole [] h (by simp)
  rwa [List.append_nil] at hspan

/-- A digit is no sign. -/
theorem takeSign_of_isDigit {c : Char} (h : c.isDigit = true) (rest : List Char) :
    takeSign (c :: rest) = (false, c :: rest) := by
  unfold takeSign
  split
  · rename_i heq
    rw [(List.cons.inj heq).1] at h
    exact absurd h (by decide)
  · rename_i heq
    rw [(List.cons.inj heq).1] at h
    exact absurd h (by decide)
  · rfl

/-- Digits around a point are read as the decimal that they spell, if there are any. -/
theorem readDecimal?_of_digits (hwhole : ∀ c ∈ whole, c.isDigit = true)
    (hfraction : ∀ c ∈ fraction, c.isDigit = true) (hdigits : whole ≠ [] ∨ fraction ≠ [])
    (htext : text = whole ∧ fraction = [] ∨ text = whole ++ '.' :: fraction) :
    readDecimal? text = some (Decimal.ofDigits whole fraction 0) := by
  unfold Calculator.readDecimal?
  rcases htext with ⟨rfl, rfl⟩ | rfl
  · have hne : text ≠ [] := by simpa using hdigits
    simp only [spanDigits_of_digits hwhole]
    rw [if_neg fun hnil => hne hnil.1]
    rfl
  · have hpoint : spanDigits (whole ++ '.' :: fraction) = (whole, '.' :: fraction) :=
      spanDigits_append hwhole (by simp)
    simp only [hpoint, spanDigits_of_digits hfraction]
    rw [if_neg fun hnil => hdigits.elim (absurd hnil.1) (absurd hnil.2)]
    rfl

theorem SpelledBy.readDecimal? (h : SpelledBy text whole fraction) :
    readDecimal? text = some (Decimal.ofDigits whole fraction 0) :=
  readDecimal?_of_digits h.whole_digits h.fraction_digits (.inl h.whole_ne_nil) h.text_eq

/-! ## Laying out digits -/

theorem isDigit_of_mem_digits (d : Decimal) : ∀ c ∈ d.digits, c.isDigit = true :=
  fun _ hc => Nat.isDigit_of_mem_toDigits (by decide) (by decide) hc

theorem ofDigitChars_digits (d : Decimal) : Nat.ofDigitChars 10 d.digits 0 = d.coefficient :=
  Nat.ofDigitChars_toDigits (by decide) (by decide)

theorem isDigit_of_mem_zeros {n : Nat} : ∀ c ∈ List.replicate n '0', c.isDigit = true := by
  intro c hc
  rw [List.eq_of_mem_replicate hc]
  rfl

/-- A decimal less than one: zeros stand between the point and the digits. -/
theorem Decimal.positional_spelled_zeros_before {d : Decimal}
    (hpoint : (d.digits.length : Int) + d.exponent ≤ 0) :
    let zeros := List.replicate (-((d.digits.length : Int) + d.exponent)).toNat '0'
    SpelledBy (d.positional []) ['0'] (zeros ++ d.digits) ∧
      (Decimal.ofDigits ['0'] (zeros ++ d.digits) 0).value = d.value := by
  intro zeros
  have htext : d.positional [] = ['0'] ++ '.' :: (zeros ++ d.digits) := if_pos hpoint
  refine ⟨⟨by simp, by simp, ?_, .inr htext⟩, ?_⟩
  · intro c hc
    exact (List.mem_append.mp hc).elim (isDigit_of_mem_zeros c) (isDigit_of_mem_digits d c)
  · have hvalue : Nat.ofDigitChars 10 (['0'] ++ (zeros ++ d.digits)) 0 = d.coefficient := by
      rw [Nat.ofDigitChars_append, Nat.ofDigitChars_append]
      simp [Nat.ofDigitChars_cons, Nat.ofDigitChars_replicate_zero, zeros, ofDigitChars_digits]
    have hexponent : (0 : Int) - (zeros ++ d.digits).length = d.exponent := by
      simp only [zeros, List.length_append, List.length_replicate]
      omega
    rw [Decimal.ofDigits, hvalue, hexponent]

/-- A whole number: zeros stand behind the digits, and there is no point. -/
theorem Decimal.positional_spelled_zeros_behind {d : Decimal}
    (hpoint : ¬(d.digits.length : Int) + d.exponent ≤ 0) (hwhole : 0 ≤ d.exponent) :
    let zeros := List.replicate d.exponent.toNat '0'
    SpelledBy (d.positional []) (d.digits ++ zeros) [] ∧
      (Decimal.ofDigits (d.digits ++ zeros) [] 0).value = d.value := by
  intro zeros
  have hne : d.digits ≠ [] := Nat.toDigits_ne_nil
  have htext : d.positional [] = d.digits ++ zeros ++ [] := by
    rw [Decimal.positional]
    simp only [if_neg hpoint, if_pos hwhole, zeros]
  refine ⟨⟨by simp [hne], ?_, by simp, .inl ⟨htext.trans (List.append_nil _), rfl⟩⟩, ?_⟩
  · intro c hc
    exact (List.mem_append.mp hc).elim (isDigit_of_mem_digits d c) (isDigit_of_mem_zeros c)
  · have hvalue : Nat.ofDigitChars 10 ((d.digits ++ zeros) ++ []) 0 =
        10 ^ d.exponent.toNat * d.coefficient := by
      rw [List.append_nil, Nat.ofDigitChars_append, ofDigitChars_digits,
        Nat.ofDigitChars_replicate_zero]
    have hexponent : (10 : Rat) ^ d.exponent = 10 ^ d.exponent.toNat := by
      rw [← zpow_natCast, Int.toNat_of_nonneg hwhole]
    rw [Decimal.ofDigits, hvalue, Decimal.value, Decimal.value, hexponent]
    push_cast
    simp [mul_comm]

/-- The point stands among the digits. -/
theorem Decimal.positional_spelled_among {d : Decimal}
    (hpoint : ¬(d.digits.length : Int) + d.exponent ≤ 0) (hwhole : ¬0 ≤ d.exponent) :
    let n := ((d.digits.length : Int) + d.exponent).toNat
    SpelledBy (d.positional []) (d.digits.take n) (d.digits.drop n) ∧
      (Decimal.ofDigits (d.digits.take n) (d.digits.drop n) 0).value = d.value := by
  intro n
  have hne : d.digits ≠ [] := Nat.toDigits_ne_nil
  have htext : d.positional [] = d.digits.take n ++ '.' :: d.digits.drop n := by
    rw [Decimal.positional]
    simp only [if_neg hpoint, if_neg hwhole, n]
  refine ⟨⟨?_, ?_, ?_, .inr htext⟩, ?_⟩
  · have hpos : 0 < n := by omega
    simp [List.take_eq_nil_iff, hne, hpos.ne']
  · exact fun c hc => isDigit_of_mem_digits d c (List.mem_of_mem_take hc)
  · exact fun c hc => isDigit_of_mem_digits d c (List.mem_of_mem_drop hc)
  · have hexponent : (0 : Int) - (d.digits.drop n).length = d.exponent := by
      rw [List.length_drop]
      omega
    rw [Decimal.ofDigits, List.take_append_drop, ofDigitChars_digits, hexponent]

/-- **Laying out** a decimal by `positional` writes down one of the same `value` (`SpelledBy`). -/
theorem Decimal.positional_spelled (d : Decimal) :
    ∃ whole fraction, SpelledBy (d.positional []) whole fraction ∧
      (Decimal.ofDigits whole fraction 0).value = d.value := by
  by_cases hpoint : (d.digits.length : Int) + d.exponent ≤ 0
  · exact ⟨_, _, positional_spelled_zeros_before hpoint⟩
  · by_cases hwhole : 0 ≤ d.exponent
    · exact ⟨_, _, positional_spelled_zeros_behind hpoint hwhole⟩
    · exact ⟨_, _, positional_spelled_among hpoint hwhole⟩

/-! ## The plain text of a number -/

/-- **The `plainNumeral` of a number** that is neither negative nor infinite is digits with at most one point,
and is read as the number. -/
theorem plainNumeral_spelled (h : Binary64.ofFloat x = .finite false coefficient exponent) :
    ∃ whole fraction, SpelledBy (plainNumeral x) whole fraction ∧
      (Decimal.ofDigits whole fraction 0).toFloat false = x := by
  have htext : plainNumeral x = if coefficient = 0 then ['0']
      else (Decimal.shortest x.abs coefficient exponent).positional [] := by
    unfold plainNumeral
    rw [h]
    rfl
  rw [htext, Binary64.abs_eq h]
  by_cases hzero : coefficient = 0
  · rw [if_pos hzero]
    refine ⟨['0'], [], ⟨by simp, by simp, by simp, .inl ⟨rfl, rfl⟩⟩, ?_⟩
    subst hzero
    have hratio : (Ratio.ofNat 0).value = (Binary64.magnitude 0 exponent).value := by
      rw [Binary64.value_magnitude, Ratio.value_ofNat, Nat.cast_zero, zero_mul]
    rw [Decimal.toFloat_zero rfl, Binary64.nearest_congr false hratio, Binary64.nearest_magnitude h]
  · rw [if_neg hzero]
    obtain ⟨whole, fraction, hspelled, hvalue⟩ :=
      (Decimal.shortest x coefficient exponent).positional_spelled
    exact ⟨whole, fraction, hspelled,
      (Decimal.toFloat_congr false hvalue).trans (Decimal.toFloat_shortest h hzero)⟩

theorem plainNumeral_infinity (h : Binary64.ofFloat x = .infinite false) :
    plainNumeral x = ['i', 'n', 'f'] := by
  unfold plainNumeral
  rw [h]
  rfl

end

end Calculator
