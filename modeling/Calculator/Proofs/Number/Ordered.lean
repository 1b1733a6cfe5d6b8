import Calculator.Proofs.Number.Displayed

/-!
# `Proofs.Number.Ordered` — greater numbers are shown as greater numbers

Rounding never passes what can be shown exactly, and so keeps the order within ten places and within seven
digits of one power of ten. From one power of ten to the next the power itself stands between, and between
the two kinds of texts the millionth does. Zero stands between the signs, which change nothing else in a
text.

## Contents

* `roundedDigits_mono`, `shownMagnitude_mono` — the order of magnitudes
* `signedValue_shownMagnitude_mono` — the order of numbers with a sign
* `flipSign`, `resultNumeral_neg` — changing the sign
* `numerals_ordered` — both, for the texts of results
-/

namespace Calculator

open Binary64 (signedValue)

section

variable {x : Float} {negative negative' : Bool} {coefficient places : Nat} {exponent : Int}
  {r s : Ratio} {c : Char}

/-! ## Magnitudes -/

/-- **Leading digits keep the order** (`roundedDigits`), also where the one magnitude has more digits before
the point. -/
theorem roundedDigits_mono (h : r.num ≠ 0) (hle : r.value ≤ s.value) :
    r.roundedDigits places ≤ s.roundedDigits places := by
  have hpos := Ratio.value_pos_iff.mpr h
  have hs : s.num ≠ 0 := Ratio.value_pos_iff.mp (hpos.trans_le hle)
  rcases (Int.log_mono_right hpos hle : Int.log 10 r.value ≤ Int.log 10 s.value).lt_or_eq with hlt | heq
  · calc r.roundedDigits places ≤ 10 ^ (Int.log 10 r.value + 1) := (roundedDigits_bounds h places).2
      _ ≤ 10 ^ Int.log 10 s.value := zpow_le_zpow_right₀ (by norm_num) (by omega)
      _ ≤ s.roundedDigits places := (roundedDigits_bounds hs places).1
  · -- both are rounded on one grid
    have hunit : ∀ k : Int, (0 : Rat) ≤ 10 ^ k := fun k => zpow_nonneg (by norm_num) k
    have hscaled : (r.scale10 (places - Int.log 10 s.value)).value ≤
        (s.scale10 (places - Int.log 10 s.value)).value := by
      rw [Ratio.value_scale10, Ratio.value_scale10]
      exact mul_le_mul_of_nonneg_right hle (hunit _)
    unfold Ratio.roundedDigits
    rw [Ratio.log10_eq h, Ratio.log10_eq hs, heq]
    refine mul_le_mul_of_nonneg_right ?_ (hunit _)
    exact_mod_cast Ratio.round_mono hscaled

theorem shownMagnitude_nonneg (r : Ratio) : 0 ≤ shownMagnitude r := by
  unfold shownMagnitude Ratio.roundedDigits
  split <;> positivity

/-- From the least magnitude that is shown without an exponent on, at least a millionth is shown. -/
theorem millionth_le_shownMagnitude (h : Binary64.rational leastPositional ≤ r.value) :
    1 / 10 ^ 6 ≤ shownMagnitude r := by
  rw [shownMagnitude_of_le h]
  exact millionth_le (le_round_scale10 h)

/-- **What is shown of magnitudes keeps their order**: `shownMagnitude` is monotone. -/
theorem shownMagnitude_mono (h : r.value ≤ s.value) : shownMagnitude r ≤ shownMagnitude s := by
  by_cases hnum : r.num = 0
  · have hzero : r.value = 0 :=
      le_antisymm (not_lt.mp (Ratio.value_pos_iff.not.mpr (not_not.mpr hnum))) r.value_nonneg
    rw [shownMagnitude_of_value_eq_zero hzero]
    exact shownMagnitude_nonneg s
  · rcases le_or_gt (Binary64.rational leastPositional) r.value with hr | hr
    · -- ten places for both
      have hscaled : (r.scale10 resultPlaces).value ≤ (s.scale10 resultPlaces).value := by
        rw [Ratio.value_scale10, Ratio.value_scale10]
        exact mul_le_mul_of_nonneg_right h (zpow_nonneg (by norm_num) _)
      rw [shownMagnitude_of_le hr, shownMagnitude_of_le (hr.trans h)]
      gcongr
      exact Ratio.round_mono hscaled
    · rcases le_or_gt (Binary64.rational leastPositional) s.value with hs | hs
      · calc shownMagnitude r = r.roundedDigits exponentialPlaces := shownMagnitude_of_lt hr
          _ ≤ 1 / 10 ^ 6 := roundedDigits_le_millionth hnum hr
          _ ≤ shownMagnitude s := millionth_le_shownMagnitude hs
      · rw [shownMagnitude_of_lt hr, shownMagnitude_of_lt hs]
        exact roundedDigits_mono hnum h

/-! ## Signs -/

/-- **What is shown of numbers keeps their order**: so is `shownMagnitude` with the signs. -/
theorem signedValue_shownMagnitude_mono
    (h : signedValue negative r.value ≤ signedValue negative' s.value) :
    signedValue negative (shownMagnitude r) ≤ signedValue negative' (shownMagnitude s) := by
  have hr := shownMagnitude_nonneg r
  have hs := shownMagnitude_nonneg s
  cases negative <;> cases negative' <;> simp only [signedValue, Bool.false_eq_true, if_false, if_true] at h ⊢
  · exact shownMagnitude_mono h
  · -- a number below zero is not above one that is not, unless both are zero
    have hr' := r.value_nonneg
    have hs' := s.value_nonneg
    rw [shownMagnitude_of_value_eq_zero (by linarith), shownMagnitude_of_value_eq_zero (by linarith),
      neg_zero]
  · linarith
  · exact neg_le_neg (shownMagnitude_mono (neg_le_neg_iff.mp h))

/-- A text with the other sign. -/
def flipSign : List Char → List Char
  | '-' :: text => text
  | text => '-' :: text

theorem flipSign_signed (hdigit : c.isDigit = true) (rest : List Char) (negative : Bool) :
    flipSign (signed negative (c :: rest)) = signed (!negative) (c :: rest) := by
  cases negative with
  | true => rfl
  | false =>
      have hsign : c ≠ '-' := by
        rintro rfl
        exact absurd hdigit (by decide)
      show flipSign (c :: rest) = '-' :: c :: rest
      unfold flipSign
      split
      · rename_i heq
        exact absurd (List.cons.inj heq).1 hsign
      · rfl

/-- **Changing the sign of a number** does `flipSign` to its text, unless the number is zero. -/
theorem resultNumeral_neg (h : Binary64.ofFloat x = .finite negative coefficient exponent)
    (hne : coefficient ≠ 0) : resultNumeral (-x) = flipSign (resultNumeral x) := by
  have hneg := Binary64.ofFloat_neg h
  have hkind : Positional (-x) ↔ Positional x := (positional_iff hneg).trans (positional_iff h).symm
  by_cases hpositional : Positional x
  · obtain ⟨whole, fraction, hform, -⟩ := positionalText_succinct (roundedPlaces coefficient exponent)
    obtain ⟨c, rest, hcons, hdigit⟩ := hform.exists_cons
    rw [resultNumeral_of_positional h hpositional,
      resultNumeral_of_positional hneg (hkind.mpr hpositional), bne_iff_ne.mpr hne, Bool.and_true,
      Bool.and_true, hcons, flipSign_signed hdigit]
  · obtain ⟨n, power, hlower, hupper, hpower, -, -, htext, hvalue⟩ :=
      resultNumeral_of_not_positional h hpositional
    obtain ⟨n', power', hlower', hupper', -, -, -, htext', hvalue'⟩ :=
      resultNumeral_of_not_positional hneg (hkind.not.mpr hpositional)
    -- the digits are those of the magnitude, which has no sign
    obtain ⟨rfl, rfl⟩ := digits_inj hlower hupper hlower' hupper' (hvalue.trans hvalue'.symm)
    obtain ⟨first, fraction, hform, -⟩ := placed_scientific hlower hupper hpower
    rw [htext, htext', hform.text_eq, flipSign_signed hform.first_digit]

theorem resultNumeral_neg_infinity (negative : Bool) :
    resultNumeral (-Binary64.infinity negative) = flipSign (resultNumeral (Binary64.infinity negative)) := by
  cases negative <;> decide +kernel

end

/-! ## Results -/

/-- **Greater numbers are shown as greater numbers**, or as the same: `denoted?` of `resultNumeral` is
monotone. And the `resultNumeral` of a number that is not zero, finite or not, differs from that of its
negative in the sign and nowhere else (`flipSign`). -/
theorem numerals_ordered :
    (∀ x y : Float, x.isFinite = true → y.isFinite = true → x ≤ y →
      ∃ a b, denoted? (resultNumeral x) = some a ∧ denoted? (resultNumeral y) = some b ∧ a ≤ b) ∧
    ∀ x : Float, x.isFinite = true ∨ x.isInf = true → (x == 0) = false →
      resultNumeral (-x) = flipSign (resultNumeral x) := by
  constructor
  · intro x y hx hy hle
    rw [Binary64.le_iff hx hy] at hle
    obtain ⟨_, _, _, hx⟩ := Binary64.isFinite_iff_ofFloat.mp hx
    obtain ⟨_, _, _, hy⟩ := Binary64.isFinite_iff_ofFloat.mp hy
    rw [Binary64.rational_of_ofFloat hx, Binary64.rational_of_ofFloat hy, ← Binary64.value_magnitude,
      ← Binary64.value_magnitude] at hle
    exact ⟨_, _, (displayed_resultNumeral hx).denoted, (displayed_resultNumeral hy).denoted,
      signedValue_shownMagnitude_mono hle⟩
  · rintro x (hx | hx) hne
    · obtain ⟨_, _, _, hx⟩ := Binary64.isFinite_iff_ofFloat.mp hx
      refine resultNumeral_neg hx fun hzero => ?_
      rw [(beq_zero_iff hx).mpr hzero] at hne
      contradiction
    · obtain ⟨negative, hx⟩ := Binary64.isInf_iff.mp hx
      rw [Binary64.eq_infinity hx]
      exact resultNumeral_neg_infinity negative

/-- Two numbers next to each other on both sides of a millionth, and one that is shown with a sign. -/
theorem numerals_ordered_millionth :
    (9.9999999e-7 : Float) ≤ 1e-6 ∧
      (∃ a b, denoted? (resultNumeral 9.9999999e-7) = some a ∧ denoted? (resultNumeral 1e-6) = some b ∧
        a ≤ b) ∧
      resultNumeral (-9.9999999e-7) = "-1.000000e-6".toList := by
  have hle : (9.9999999e-7 : Float) ≤ 1e-6 := by decide +kernel
  refine ⟨hle, numerals_ordered.1 _ _ (by decide +kernel) (by decide +kernel) hle, ?_⟩
  rw [numerals_ordered.2 9.9999999e-7 (.inl (by decide +kernel)) (by decide +kernel)]
  decide +kernel

end Calculator
