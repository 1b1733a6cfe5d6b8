import Calculator.Proofs.Number.Accuracy

/-!
# `Proofs.Number.Displayed` — the number that is shown

What is shown of a finite number is again a number: zero, a magnitude in ten places that is at least a
millionth, or one in seven digits that is at most a millionth. Each of the three is written in one way only,
and no number but a millionth is of two kinds. Which kind a number is shown in is decided before it is
rounded; so what is less than a millionth by no more than rounding is shown as a millionth with an
exponent, while the millionth itself is shown without.

## Contents

* `Displayed` — the texts of results, each with the number that it denotes
* `shownMagnitude`, `displayed_resultNumeral` — the text of any finite number is one of them
* `Displayed.unique` — no number has two texts, a millionth apart
* `numerals_canonical`, `millionth_shown_twice` — the same for the numbers that are shown
-/

namespace Calculator

open Binary64 (signedValue)

/-! ## Texts and numbers -/

/-- **The texts of results**, each with the number that it denotes: `positionalText` without an exponent and
`exponentialText` with one. -/
inductive Displayed : List Char → Rat → Prop where
  | zero : Displayed ['0'] 0
  | positional (negative : Bool) {n : Nat} (least : 10 ^ 4 ≤ n) :
      Displayed (signed negative (positionalText n)) (signedValue negative (n / 10 ^ 10))
  | exponential (negative : Bool) {n power : Nat} (lower : 10 ^ 6 ≤ n) (upper : n < 10 ^ 7)
      (greatest : n * 10 ^ 6 ≤ 10 ^ (power + 6)) :
      Displayed (signed negative (exponentialText n power))
        (signedValue negative (n / 10 ^ (power + 6)))

section

variable {x : Float} {negative : Bool} {coefficient n m power power' : Nat} {exponent : Int}
  {r : Ratio} {text text' : List Char} {value : Rat}

/-- Seven digits that are at most a millionth need six powers of ten. -/
theorem six_le_power (hlower : 10 ^ 6 ≤ n) (hgreatest : n * 10 ^ 6 ≤ 10 ^ (power + 6)) : 6 ≤ power := by
  have htwelve : 10 ^ 12 ≤ 10 ^ (power + 6) := by omega
  have hle := (Nat.pow_le_pow_iff_right (by decide)).mp htwelve
  omega

theorem Displayed.denoted (h : Displayed text value) : denoted? text = some value := by
  cases h with
  | zero => decide +kernel
  | positional negative least => exact denoted?_positional negative _
  | exponential negative lower upper greatest =>
      have hpower := six_le_power lower greatest
      exact denoted?_exponential negative lower upper (by omega)

/-! ## The text of a number -/

/-- The leading digits of a fraction stand for a number between the powers of ten around it. -/
theorem roundedDigits_bounds (h : r.num ≠ 0) (places : Nat) :
    10 ^ Int.log 10 r.value ≤ r.roundedDigits places ∧
      r.roundedDigits places ≤ 10 ^ (Int.log 10 r.value + 1) := by
  have hten : (10 : Rat) ≠ 0 := by norm_num
  have hunit : (0 : Rat) < 10 ^ (Int.log 10 r.value - (places : Int)) := zpow_pos (by norm_num) _
  obtain ⟨hlower, hupper⟩ := round_scale10_bounds h places
  unfold Ratio.roundedDigits
  rw [Ratio.log10_eq h] at hlower hupper ⊢
  constructor
  · calc (10 : Rat) ^ Int.log 10 r.value
        = ((10 ^ places : Nat) : Rat) * 10 ^ (Int.log 10 r.value - (places : Int)) := by
          rw [Nat.cast_pow, Nat.cast_ofNat, ← zpow_natCast, ← zpow_add₀ hten, add_sub_cancel]
      _ ≤ _ := mul_le_mul_of_nonneg_right (by exact_mod_cast hlower) hunit.le
  · calc _ ≤ ((10 ^ (places + 1) : Nat) : Rat) * 10 ^ (Int.log 10 r.value - (places : Int)) :=
          mul_le_mul_of_nonneg_right (by exact_mod_cast hupper) hunit.le
      _ = 10 ^ (Int.log 10 r.value + 1) := by
          rw [Nat.cast_pow, Nat.cast_ofNat, ← zpow_natCast, ← zpow_add₀ hten]
          push_cast
          exact congrArg _ (by ring)

/-- The magnitude that is shown in place of a fraction. -/
def shownMagnitude (r : Ratio) : Rat :=
  if Binary64.rational leastPositional ≤ r.value then (r.scale10 resultPlaces).round / 10 ^ 10
  else r.roundedDigits exponentialPlaces

theorem rational_leastPositional_lt : Binary64.rational leastPositional < 1 / 10 ^ 6 := by
  rw [rational_leastPositional]
  norm_num

theorem rational_leastPositional_pos : 0 < Binary64.rational leastPositional := by
  rw [rational_leastPositional]
  norm_num

theorem shownMagnitude_of_le (h : Binary64.rational leastPositional ≤ r.value) :
    shownMagnitude r = (r.scale10 resultPlaces).round / 10 ^ 10 := if_pos h

theorem shownMagnitude_of_lt (h : r.value < Binary64.rational leastPositional) :
    shownMagnitude r = r.roundedDigits exponentialPlaces := if_neg (not_le.mpr h)

theorem shownMagnitude_of_value_eq_zero (h : r.value = 0) : shownMagnitude r = 0 := by
  have hround : (r.scale10 ((exponentialPlaces : Int) - r.log10)).round = 0 := by
    refine Nat.le_zero.mp (Ratio.round_le_of_le ?_)
    rw [Ratio.value_scale10, h, zero_mul, Nat.cast_zero]
  rw [shownMagnitude_of_lt (h ▸ rational_leastPositional_pos), Ratio.roundedDigits, hround, Nat.cast_zero,
    zero_mul]

/-- What is less than a millionth is shown as no more than that. -/
theorem roundedDigits_le_millionth (h : r.num ≠ 0) (hlt : r.value < Binary64.rational leastPositional) :
    r.roundedDigits exponentialPlaces ≤ 1 / 10 ^ 6 := by
  have hlog : Int.log 10 r.value < -6 := by
    refine (Int.lt_zpow_iff_log_lt (by decide) (Ratio.value_pos_iff.mpr h)).mp ?_
    refine (hlt.trans rational_leastPositional_lt).trans_eq ?_
    norm_num
  calc r.roundedDigits exponentialPlaces ≤ 10 ^ (Int.log 10 r.value + 1) :=
        (roundedDigits_bounds h exponentialPlaces).2
    _ ≤ 10 ^ (-6 : Int) := zpow_le_zpow_right₀ (by norm_num) (by omega)
    _ = 1 / 10 ^ 6 := by norm_num

/-- **The text of any finite number** is `Displayed`, and denotes the `shownMagnitude` with the sign. -/
theorem displayed_resultNumeral (h : Binary64.ofFloat x = .finite negative coefficient exponent) :
    Displayed (resultNumeral x)
      (signedValue negative (shownMagnitude (Binary64.magnitude coefficient exponent))) := by
  by_cases hpositional : Positional x
  · have htext := resultNumeral_of_positional h hpositional
    rcases (positional_iff h).mp hpositional with hzero | hle
    · have hvalue : (Binary64.magnitude coefficient exponent).value = 0 := by
        rw [Binary64.value_magnitude, hzero, Nat.cast_zero, zero_mul]
      rw [htext, hzero, roundedPlaces_zero, positionalText_zero, bne_self_eq_false, Bool.and_false,
        ← hzero, shownMagnitude_of_value_eq_zero hvalue, Binary64.signedValue_zero]
      exact .zero
    · rw [htext, bne_iff_ne.mpr (coefficient_ne_zero hle), Bool.and_true,
        shownMagnitude_of_le (by rwa [Binary64.value_magnitude])]
      exact .positional negative (le_roundedPlaces hle)
  · obtain ⟨hne, hsmall⟩ := not_or.mp ((positional_iff h).not.mp hpositional)
    have hlt : (Binary64.magnitude coefficient exponent).value < Binary64.rational leastPositional := by
      rw [Binary64.value_magnitude]
      exact not_le.mp hsmall
    have hnum : (Binary64.magnitude coefficient exponent).num ≠ 0 := by
      rw [← Ratio.value_pos_iff, Binary64.value_magnitude]
      exact Binary64.value_pos hne exponent
    obtain ⟨n, power, hlower, hupper, -, -, -, htext, hvalue⟩ :=
      resultNumeral_of_not_positional h hpositional
    have hle := roundedDigits_le_millionth hnum hlt
    rw [← hvalue, div_le_div_iff₀ (by positivity) (by positivity), one_mul] at hle
    rw [htext, shownMagnitude_of_lt hlt, ← hvalue]
    exact .exponential negative hlower hupper (by exact_mod_cast hle)

/-! ## One text for each number -/

/-- Seven digits do not make up for a power of ten. -/
theorem power_le_of_eq (hlower : 10 ^ 6 ≤ n) (hupper : m < 10 ^ 7)
    (h : n * 10 ^ (power' + 6) = m * 10 ^ (power + 6)) : power' ≤ power := by
  by_contra hlt
  have hnext : 10 ^ (power + 7) ≤ 10 ^ (power' + 6) := Nat.pow_le_pow_right (by decide) (by omega)
  have hpos : 0 < 10 ^ (power + 6) := Nat.pow_pos (by decide)
  have hgreater : m * 10 ^ (power + 6) < n * 10 ^ (power' + 6) := by
    calc m * 10 ^ (power + 6) < 10 ^ 7 * 10 ^ (power + 6) := Nat.mul_lt_mul_of_pos_right hupper hpos
      _ = 10 ^ 6 * 10 ^ (power + 7) := by ring
      _ ≤ n * 10 ^ (power' + 6) := Nat.mul_le_mul hlower hnext
  omega

/-- Seven digits and a power of ten are found again in the number that they stand for. -/
theorem digits_inj (hlower : 10 ^ 6 ≤ n) (hupper : n < 10 ^ 7) (hlower' : 10 ^ 6 ≤ m) (hupper' : m < 10 ^ 7)
    (h : (n : Rat) / 10 ^ (power + 6) = m / 10 ^ (power' + 6)) : n = m ∧ power = power' := by
  rw [div_eq_div_iff (by positivity) (by positivity)] at h
  have hcross : n * 10 ^ (power' + 6) = m * 10 ^ (power + 6) := by exact_mod_cast h
  have hpower : power = power' :=
    Nat.le_antisymm (power_le_of_eq hlower' hupper hcross.symm) (power_le_of_eq hlower hupper' hcross)
  rw [hpower] at hcross
  exact ⟨Nat.eq_of_mul_eq_mul_right (Nat.pow_pos (by decide)) hcross, hpower⟩

theorem positionalText_millionth : positionalText (10 ^ 4) = "0.000001".toList := by decide +kernel

theorem exponentialText_millionth : exponentialText (10 ^ 6) 6 = "1.000000e-6".toList := by decide +kernel

theorem millionth_le (hleast : 10 ^ 4 ≤ n) : (1 : Rat) / 10 ^ 6 ≤ n / 10 ^ 10 := by
  rw [div_le_div_iff₀ (by positivity) (by positivity), one_mul]
  exact_mod_cast (by omega : 10 ^ 10 ≤ n * 10 ^ 6)

theorem le_millionth (hgreatest : n * 10 ^ 6 ≤ 10 ^ (power + 6)) :
    (n : Rat) / 10 ^ (power + 6) ≤ 1 / 10 ^ 6 := by
  rw [div_le_div_iff₀ (by positivity) (by positivity), one_mul]
  exact_mod_cast hgreatest

/-- A magnitude of seven digits that is a millionth has its digits. -/
theorem eq_millionth (hlower : 10 ^ 6 ≤ n) (hupper : n < 10 ^ 7)
    (h : (n : Rat) / 10 ^ (power + 6) = 1 / 10 ^ 6) : n = 10 ^ 6 ∧ power = 6 := by
  refine digits_inj hlower hupper le_rfl (by decide) (h.trans ?_)
  norm_num

/-- Where a text without an exponent and one with an exponent denote the same number, it is a millionth. -/
theorem millionth_of_both (hleast : 10 ^ 4 ≤ m) (hlower : 10 ^ 6 ≤ n) (hupper : n < 10 ^ 7)
    (hgreatest : n * 10 ^ 6 ≤ 10 ^ (power + 6)) (h : (m : Rat) / 10 ^ 10 = n / 10 ^ (power + 6)) :
    positionalText m = "0.000001".toList ∧ exponentialText n power = "1.000000e-6".toList := by
  have hm : (m : Rat) / 10 ^ 10 = 1 / 10 ^ 6 :=
    le_antisymm (h.trans_le (le_millionth hgreatest)) (millionth_le hleast)
  obtain ⟨rfl, rfl⟩ := eq_millionth hlower hupper (h.symm.trans hm)
  have hfour : m = 10 ^ 4 := by
    rw [div_eq_div_iff (by positivity) (by positivity), one_mul] at hm
    have hcross : m * 10 ^ 6 = 10 ^ 10 := by exact_mod_cast hm
    omega
  rw [hfour]
  exact ⟨positionalText_millionth, exponentialText_millionth⟩

theorem positional_pos (hleast : 10 ^ 4 ≤ n) : (0 : Rat) < n / 10 ^ 10 :=
  lt_of_lt_of_le (by norm_num) (millionth_le hleast)

theorem exponential_pos (hlower : 10 ^ 6 ≤ n) : (0 : Rat) < n / 10 ^ (power + 6) := by
  have hn : 0 < n := by omega
  positivity

/-- **No number that is `Displayed` has two texts, a millionth apart**, which has one with an exponent and one
without. -/
theorem Displayed.unique (h : Displayed text value) (h' : Displayed text' value) :
    text = text' ∨ ∃ negative,
      (text = signed negative "0.000001".toList ∧ text' = signed negative "1.000000e-6".toList) ∨
        (text = signed negative "1.000000e-6".toList ∧ text' = signed negative "0.000001".toList) := by
  generalize hvalue : value = value' at h'
  cases h with
  | zero =>
      cases h' with
      | zero => exact .inl rfl
      | positional negative' least' =>
          exact absurd hvalue.symm (Binary64.signedValue_ne_zero (positional_pos least') negative')
      | exponential negative' lower' upper' greatest' =>
          exact absurd hvalue.symm (Binary64.signedValue_ne_zero (exponential_pos lower') negative')
  | positional negative least =>
      cases h' with
      | zero => exact absurd hvalue (Binary64.signedValue_ne_zero (positional_pos least) negative)
      | positional negative' least' =>
          obtain ⟨rfl, heq⟩ := Binary64.signedValue_inj (positional_pos least) (positional_pos least') hvalue
          rw [div_left_inj' (by positivity), Nat.cast_inj] at heq
          exact .inl (by rw [heq])
      | exponential negative' lower' upper' greatest' =>
          obtain ⟨rfl, heq⟩ := Binary64.signedValue_inj (positional_pos least) (exponential_pos lower') hvalue
          obtain ⟨htext, htext'⟩ := millionth_of_both least lower' upper' greatest' heq
          rw [htext, htext']
          exact .inr ⟨negative, .inl ⟨rfl, rfl⟩⟩
  | exponential negative lower upper greatest =>
      cases h' with
      | zero => exact absurd hvalue (Binary64.signedValue_ne_zero (exponential_pos lower) negative)
      | positional negative' least' =>
          obtain ⟨rfl, heq⟩ := Binary64.signedValue_inj (exponential_pos lower) (positional_pos least') hvalue
          obtain ⟨htext', htext⟩ := millionth_of_both least' lower upper greatest heq.symm
          rw [htext, htext']
          exact .inr ⟨negative, .inr ⟨rfl, rfl⟩⟩
      | exponential negative' lower' upper' greatest' =>
          obtain ⟨rfl, heq⟩ := Binary64.signedValue_inj (exponential_pos lower) (exponential_pos lower') hvalue
          obtain ⟨rfl, rfl⟩ := digits_inj lower upper lower' upper' heq
          exact .inl rfl

/-! ## The kind of a text -/

theorem mem_signed_iff : 'e' ∈ signed negative text ↔ 'e' ∈ text := by
  cases negative <;> simp [signed]

theorem exponent_not_mem_positionalText (n : Nat) : 'e' ∉ positionalText n := by
  obtain ⟨whole, fraction, hform, -, -⟩ := positionalText_succinct n
  have hdigit : ∀ {digits : List Char}, (∀ c ∈ digits, c.isDigit = true) → 'e' ∉ digits := by
    intro digits hdigits hmem
    exact absurd (hdigits 'e' hmem) (by decide)
  rw [hform.text_eq, List.mem_append, not_or]
  refine ⟨hdigit hform.whole_digits, ?_⟩
  split
  · exact List.not_mem_nil
  · rw [List.mem_cons, not_or]
    exact ⟨by decide, hdigit hform.fraction_digits⟩

theorem exponent_mem_exponentialText (n power : Nat) : 'e' ∈ exponentialText n power := by
  simp [exponentialText]

/-- With an exponent at most a millionth is shown, and a millionth in one way. -/
theorem Displayed.le_millionth (h : Displayed text value) (hmem : 'e' ∈ text) :
    0 < |value| ∧ |value| ≤ 1 / 10 ^ 6 ∧
      (|value| = 1 / 10 ^ 6 → ∃ negative, text = signed negative "1.000000e-6".toList) := by
  cases h with
  | zero => exact absurd hmem (by decide)
  | positional negative least =>
      exact absurd (mem_signed_iff.mp hmem) (exponent_not_mem_positionalText _)
  | exponential negative lower upper greatest =>
      rw [Binary64.abs_signedValue _ (exponential_pos lower).le]
      refine ⟨exponential_pos lower, Calculator.le_millionth greatest, fun heq => ⟨negative, ?_⟩⟩
      obtain ⟨rfl, rfl⟩ := eq_millionth lower upper heq
      rw [exponentialText_millionth]

/-- Without an exponent nothing is shown or at least a millionth. -/
theorem Displayed.millionth_le (h : Displayed text value) (hmem : 'e' ∉ text) :
    value = 0 ∨ 1 / 10 ^ 6 ≤ |value| := by
  cases h with
  | zero => exact .inl rfl
  | positional negative least =>
      rw [Binary64.abs_signedValue _ (positional_pos least).le]
      exact .inr (Calculator.millionth_le least)
  | exponential negative lower upper greatest =>
      exact absurd (mem_signed_iff.mpr (exponent_mem_exponentialText _ _)) hmem

/-- The kind of a text is decided by the number before it is rounded. -/
theorem exponent_mem_iff (h : Binary64.ofFloat x = .finite negative coefficient exponent) :
    'e' ∈ resultNumeral x ↔ (x == 0) = false ∧ x.abs < leastPositional := by
  have hkind : (x == 0) = false ∧ x.abs < leastPositional ↔ ¬Positional x := by
    rw [Positional, not_or, not_not, Bool.not_eq_true]
  rw [hkind]
  by_cases hpositional : Positional x
  · refine iff_of_false ?_ (not_not.mpr hpositional)
    rw [resultNumeral_of_positional h hpositional, mem_signed_iff]
    exact exponent_not_mem_positionalText _
  · obtain ⟨n, power, -, -, -, -, -, htext, -⟩ := resultNumeral_of_not_positional h hpositional
    refine iff_of_true ?_ hpositional
    rw [htext, mem_signed_iff]
    exact exponent_mem_exponentialText n power

end

/-! ## Results -/

/-- **One text for each number that is shown, a millionth apart.** If the numerals of two finite numbers
denote the same (`denoted?`), they are the same, or one is `0.000001` and the other `1.000000e-6`, both with
the same sign. A numeral has an exponent exactly for a number that is not zero and below `leastPositional`.
With an exponent it denotes at most a millionth, and a millionth only as `1.000000e-6`; without one, zero or
at least a millionth. -/
theorem numerals_canonical :
    (∀ x y : Float, x.isFinite = true → y.isFinite = true →
      denoted? (resultNumeral x) = denoted? (resultNumeral y) →
      resultNumeral x = resultNumeral y ∨ ∃ negative,
        (resultNumeral x = signed negative "0.000001".toList ∧
          resultNumeral y = signed negative "1.000000e-6".toList) ∨
        (resultNumeral x = signed negative "1.000000e-6".toList ∧
          resultNumeral y = signed negative "0.000001".toList)) ∧
    ∀ x : Float, x.isFinite = true → ∃ value, denoted? (resultNumeral x) = some value ∧
      ('e' ∈ resultNumeral x ↔ (x == 0) = false ∧ x.abs < leastPositional) ∧
      ('e' ∈ resultNumeral x → 0 < |value| ∧ |value| ≤ 1 / 10 ^ 6 ∧
        (|value| = 1 / 10 ^ 6 → ∃ negative, resultNumeral x = signed negative "1.000000e-6".toList)) ∧
      ('e' ∉ resultNumeral x → value = 0 ∨ 1 / 10 ^ 6 ≤ |value|) := by
  constructor
  · intro x y hx hy heq
    obtain ⟨_, _, _, hx⟩ := Binary64.isFinite_iff_ofFloat.mp hx
    obtain ⟨_, _, _, hy⟩ := Binary64.isFinite_iff_ofFloat.mp hy
    have hshown := displayed_resultNumeral hx
    have hshown' := displayed_resultNumeral hy
    rw [hshown.denoted, hshown'.denoted, Option.some.injEq] at heq
    exact hshown.unique (heq ▸ hshown')
  · intro x hx
    obtain ⟨_, _, _, hx⟩ := Binary64.isFinite_iff_ofFloat.mp hx
    have hshown := displayed_resultNumeral hx
    exact ⟨_, hshown.denoted, exponent_mem_iff hx, hshown.le_millionth, hshown.millionth_le⟩

/-- Two numbers that are shown alike, and one that is shown as a millionth without being one. -/
theorem numerals_canonical_neighbours :
    (0.1 + 0.2 : Float) ≠ 0.3 ∧
      (resultNumeral (0.1 + 0.2) = resultNumeral 0.3 ∨ ∃ negative,
        (resultNumeral (0.1 + 0.2) = signed negative "0.000001".toList ∧
          resultNumeral 0.3 = signed negative "1.000000e-6".toList) ∨
        (resultNumeral (0.1 + 0.2) = signed negative "1.000000e-6".toList ∧
          resultNumeral 0.3 = signed negative "0.000001".toList)) ∧
      ∃ value, denoted? (resultNumeral 9.9999999e-7) = some value ∧
        ('e' ∈ resultNumeral 9.9999999e-7 → 0 < |value| ∧ |value| ≤ 1 / 10 ^ 6) ∧
        'e' ∈ resultNumeral 9.9999999e-7 := by
  have hdifferent : (0.1 + 0.2 : Float) ≠ 0.3 := by decide +kernel
  have halike := numerals_canonical.1 (0.1 + 0.2) 0.3 (by decide +kernel) (by decide +kernel)
    (by decide +kernel)
  obtain ⟨value, hvalue, hkind, hbounds, -⟩ := numerals_canonical.2 9.9999999e-7 (by decide +kernel)
  exact ⟨hdifferent, halike, value, hvalue, fun hmem => ⟨(hbounds hmem).1, (hbounds hmem).2.1⟩,
    hkind.mpr (by decide +kernel)⟩

/-- **The millionth has two texts**: `resultNumeral` shows both, and `denoted?` is the same for them. -/
theorem millionth_shown_twice :
    (9.9999999e-7 : Float).isFinite = true ∧ (1e-6 : Float).isFinite = true ∧
      resultNumeral 9.9999999e-7 = "1.000000e-6".toList ∧ resultNumeral 1e-6 = "0.000001".toList ∧
      denoted? (resultNumeral 9.9999999e-7) = some (1 / 10 ^ 6) ∧
      denoted? (resultNumeral 1e-6) = some (1 / 10 ^ 6) ∧
      resultNumeral 9.9999999e-7 ≠ resultNumeral 1e-6 := by
  decide +kernel

end Calculator
