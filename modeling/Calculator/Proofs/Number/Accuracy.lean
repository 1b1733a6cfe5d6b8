import Calculator.Proofs.Number.Exponential

/-!
# `Proofs.Number.Accuracy` — what the text of a result says

The text of a result is a decimal numeral, and so denotes a rational number of its own. It is read here as
anybody would read it: digits around a point, a power of ten behind the letter, a sign in front. That number
is within half a unit of the last place of the number that is shown, be the place the tenth behind the point
or the sixth behind the first digit. Nothing in the text is superfluous: no zero in front of other digits, no
zero at the end of a fraction, no sign of zero.

## Contents

* `denoted?` — the rational number that a text denotes
* `Succinct`, `Scientific` — the two forms of a result
* `positionalText_succinct`, `placed_scientific` — the text has its form
* `denoted?_positional`, `denoted?_exponential` — what it denotes
* `DenotesWithin`, `resultNumeral_accurate` — the text of any finite number
-/

namespace Calculator

/-- The rational number that a text denotes: digits with at most one point among them, perhaps an exponent
behind them, and perhaps a sign in front. -/
def denoted? (text : List Char) : Option Rat :=
  (readDecimal? (takeSign text).2).map fun d => Binary64.signedValue (takeSign text).1 d.value

/-- **Digits around a point, and nothing superfluous**: a zero in front stands alone (`leading`), none stands
at the end of the fraction (`trailing`), and where there is no fraction there is no point. -/
structure Succinct (text whole fraction : List Char) : Prop where
  text_eq : text = whole ++ if fraction = [] then [] else '.' :: fraction
  whole_ne_nil : whole ≠ []
  whole_digits : ∀ c ∈ whole, c.isDigit = true
  fraction_digits : ∀ c ∈ fraction, c.isDigit = true
  leading : whole.head? = some '0' → whole = ['0']
  trailing : fraction.getLast? ≠ some '0'

/-- **One digit that is not zero, a fraction, and a negative exponent** that does not begin with zero
(`power_leading`). -/
structure Scientific (text : List Char) (first : Char) (fraction power : List Char) : Prop where
  text_eq : text = first :: '.' :: (fraction ++ 'e' :: '-' :: power)
  first_digit : first.isDigit = true
  first_ne_zero : first ≠ '0'
  fraction_digits : ∀ c ∈ fraction, c.isDigit = true
  power_ne_nil : power ≠ []
  power_digits : ∀ c ∈ power, c.isDigit = true
  power_leading : power.head? ≠ some '0'

/-- The text of a magnitude with an exponent: one digit and the places behind it, and a power of ten. -/
def exponentialText (n power : Nat) : List Char :=
  placed exponentialPlaces n ++ 'e' :: '-' :: Nat.toDigits 10 power

section

variable {text whole fraction power rest : List Char} {x : Float} {first c : Char}
  {negative : Bool} {coefficient n : Nat} {exponent : Int}

/-! ## Reading a text -/

/-- A sign in front of digits changes the sign of what they denote. -/
theorem denoted?_signed {d : Decimal} (hdigit : c.isDigit = true)
    (hread : readDecimal? (c :: rest) = some d) (negative : Bool) :
    denoted? (signed negative (c :: rest)) = some (Binary64.signedValue negative d.value) := by
  cases negative with
  | true =>
      show (readDecimal? (c :: rest)).map (fun d => Binary64.signedValue true d.value) = _
      rw [hread, Option.map_some]
  | false =>
      show denoted? (c :: rest) = _
      rw [denoted?, takeSign_of_isDigit hdigit, hread, Option.map_some]

/-- A power of ten moves the point. -/
theorem value_ofDigits (whole fraction : List Char) (k : Int) :
    (Decimal.ofDigits whole fraction k).value = (Decimal.ofDigits whole fraction 0).value * 10 ^ k := by
  rw [Decimal.ofDigits, Decimal.ofDigits, Decimal.value, Decimal.value, mul_assoc,
    ← zpow_add₀ (by norm_num), sub_add_eq_add_sub, zero_add]

theorem Succinct.spelled (h : Succinct text whole fraction) : SpelledBy text whole fraction := by
  refine ⟨h.whole_ne_nil, h.whole_digits, h.fraction_digits, ?_⟩
  rw [h.text_eq]
  by_cases hnil : fraction = []
  · rw [if_pos hnil, List.append_nil]
    exact .inl ⟨rfl, hnil⟩
  · rw [if_neg hnil]
    exact .inr rfl

theorem readExponent?_minus (hne : power ≠ []) (hdigits : ∀ c ∈ power, c.isDigit = true) :
    readExponent? ('e' :: '-' :: power) = some (-(Nat.ofDigitChars 10 power 0 : Int)) := by
  have hsign : takeSign ('-' :: power) = (true, power) := rfl
  simp only [readExponent?, hsign, spanDigits_of_digits hdigits, true_or, if_true, hne, ne_eq,
    not_true_eq_false, or_self, if_false]

/-- The exponent of a text is a power of ten. -/
theorem Scientific.readDecimal? (h : Scientific text first fraction power) :
    readDecimal? text =
      some (Decimal.ofDigits [first] fraction (-(Nat.ofDigitChars 10 power 0 : Int))) := by
  have hwhole : spanDigits (first :: '.' :: (fraction ++ 'e' :: '-' :: power)) =
      ([first], '.' :: (fraction ++ 'e' :: '-' :: power)) := by
    have hdigits : ∀ c ∈ [first], c.isDigit = true := by simpa using h.first_digit
    exact spanDigits_append hdigits (by simp)
  have hfraction : spanDigits (fraction ++ 'e' :: '-' :: power) = (fraction, 'e' :: '-' :: power) :=
    spanDigits_append h.fraction_digits (by simp)
  rw [h.text_eq]
  unfold Calculator.readDecimal?
  simp only [hwhole, hfraction]
  rw [if_neg (by simp), readExponent?_minus h.power_ne_nil h.power_digits, Option.map_some]

/-! ## The two forms -/

/-- **Without an exponent** the text is `Succinct`, with at most `resultPlaces` behind the point. -/
theorem positionalText_succinct (n : Nat) :
    ∃ whole fraction, Succinct (positionalText n) whole fraction ∧ fraction.length ≤ resultPlaces ∧
      (Decimal.ofDigits whole fraction 0).value = n / 10 ^ 10 := by
  have hplaces : 0 < resultPlaces := by decide
  obtain ⟨htext, hspelled⟩ := placed_spelled hplaces n
  obtain ⟨shorter, k, hfraction, htrailing, hshorter⟩ := dropTrailing_point hspelled htext
  refine ⟨_, shorter, ⟨hshorter, hspelled.whole_ne_nil, hspelled.whole_digits, ?_, ?_, htrailing⟩, ?_, ?_⟩
  · exact fun c hc => hspelled.fraction_digits c (hfraction ▸ List.mem_append_left _ hc)
  · intro hzero
    by_cases hwhole : n / 10 ^ resultPlaces = 0
    · rw [hwhole]
      rfl
    · exact absurd hzero (head?_toDigits_ne_zero hwhole)
  · have hlength := congrArg List.length hfraction
    rw [length_padDigits hplaces (Nat.mod_lt n (Nat.pow_pos (by decide))), List.length_append] at hlength
    omega
  · rw [← value_append_zeros _ shorter k, ← hfraction]
    exact value_placed (by decide) n

/-- **With an exponent** the text is `Scientific`, with `exponentialPlaces` behind the point. -/
theorem placed_scientific (hlower : 10 ^ 6 ≤ n) (hupper : n < 10 ^ 7) {k : Nat} (hk : 0 < k) :
    ∃ first fraction, Scientific (placed exponentialPlaces n ++ 'e' :: '-' :: Nat.toDigits 10 k) first
        fraction (Nat.toDigits 10 k) ∧ fraction.length = exponentialPlaces ∧
      (Decimal.ofDigits [first] fraction (-(k : Int))).value = n / 10 ^ (k + 6) := by
  have hplaces : 0 < exponentialPlaces := by decide
  obtain ⟨htext, hspelled⟩ := placed_spelled hplaces n
  have hfirst : n / 10 ^ exponentialPlaces < 10 := by
    rw [Nat.div_lt_iff_lt_mul (Nat.pow_pos (by decide))]
    exact hupper
  have hpos : n / 10 ^ exponentialPlaces ≠ 0 :=
    (Nat.div_pos hlower (Nat.pow_pos (by decide))).ne'
  -- one digit stands before the point
  have hwhole : Nat.toDigits 10 (n / 10 ^ exponentialPlaces) =
      [Nat.digitChar (n / 10 ^ exponentialPlaces)] := Nat.toDigits_of_lt_base hfirst
  have hleading := head?_toDigits_ne_zero hpos
  have hdigit := hspelled.whole_digits
  have hvalue := value_placed hplaces n
  rw [hwhole] at htext hleading hdigit hvalue
  refine ⟨_, _, ⟨?_, hdigit _ List.mem_cons_self, ?_, hspelled.fraction_digits, Nat.toDigits_ne_nil,
    isDigit_of_mem_toDigits, head?_toDigits_ne_zero hk.ne'⟩,
    length_padDigits hplaces (Nat.mod_lt n (Nat.pow_pos (by decide))), ?_⟩
  · rw [htext]
    simp
  · simpa using hleading
  · rw [value_ofDigits, hvalue, zpow_neg, zpow_natCast, ← div_eq_mul_inv, div_div, ← pow_add, Nat.add_comm]
    rfl

/-! ## The sign -/

theorem lt_zero_iff (h : Binary64.ofFloat x = .finite negative coefficient exponent) :
    x < 0 ↔ negative = true ∧ coefficient ≠ 0 := by
  rw [Binary64.lt_iff (Binary64.isFinite_of_ofFloat h) Binary64.isFinite_zero, Binary64.rational_zero,
    Binary64.rational_of_ofFloat h]
  by_cases hzero : coefficient = 0
  · rw [hzero, Nat.cast_zero, zero_mul, Binary64.signedValue_zero]
    simp
  · have hpos := Binary64.value_pos hzero exponent
    cases negative with
    | true =>
        refine iff_of_true ?_ ⟨rfl, hzero⟩
        exact neg_neg_of_pos hpos
    | false =>
        refine iff_of_false ?_ (by simp)
        exact hpos.le.not_gt

theorem lt_zero_eq (h : Binary64.ofFloat x = .finite negative coefficient exponent)
    (hne : coefficient ≠ 0) : decide (x < 0) = negative := by
  rw [Bool.eq_iff_iff, decide_eq_true_iff, lt_zero_iff h]
  exact and_iff_left hne

theorem head?_signed (hdigit : c.isDigit = true) (rest : List Char) (negative : Bool) :
    (signed negative (c :: rest)).head? = some '-' ↔ negative = true := by
  cases negative with
  | true => exact iff_of_true rfl rfl
  | false =>
      refine iff_of_false ?_ (by decide)
      rintro hminus
      rw [Option.some.inj hminus] at hdigit
      exact absurd hdigit (by decide)

theorem Succinct.exists_cons (h : Succinct text whole fraction) :
    ∃ c rest, text = c :: rest ∧ c.isDigit = true := by
  obtain ⟨c, rest, rfl⟩ := List.exists_cons_of_ne_nil h.whole_ne_nil
  exact ⟨c, _, h.text_eq, h.whole_digits c List.mem_cons_self⟩

/-! ## The number that a text denotes -/

theorem denoted?_positional (negative : Bool) (n : Nat) :
    denoted? (signed negative (positionalText n)) = some (Binary64.signedValue negative (n / 10 ^ 10)) := by
  obtain ⟨whole, fraction, hform, -, hvalue⟩ := positionalText_succinct n
  obtain ⟨c, rest, hcons, hdigit⟩ := hform.exists_cons
  have hread := hform.spelled.readDecimal?
  rw [hcons] at hread ⊢
  rw [denoted?_signed hdigit hread, hvalue]

theorem denoted?_exponential (negative : Bool) (hlower : 10 ^ 6 ≤ n) (hupper : n < 10 ^ 7)
    {k : Nat} (hk : 0 < k) :
    denoted? (signed negative (exponentialText n k)) =
      some (Binary64.signedValue negative (n / 10 ^ (k + 6))) := by
  obtain ⟨first, fraction, hform, -, hvalue⟩ := placed_scientific hlower hupper hk
  have hread := hform.readDecimal?
  rw [Nat.ofDigitChars_ten_toDigits] at hread
  unfold exponentialText
  rw [hform.text_eq] at hread ⊢
  rw [denoted?_signed hform.first_digit hread, hvalue]

/-! ## Accuracy -/

/-- **A text is so close to a number**: `denoted?` gives a rational number that is. -/
def DenotesWithin (text : List Char) (x : Float) (bound : Rat) : Prop :=
  ∃ value, denoted? text = some value ∧ |value - Binary64.rational x| ≤ bound

/-- What is denoted without the sign is as far from the magnitude as the text with its sign is from the
number. -/
theorem denotesWithin_of_denoted {value bound : Rat}
    (h : Binary64.ofFloat x = .finite negative coefficient exponent)
    (hdenoted : denoted? text = some (Binary64.signedValue negative value))
    (hle : |value - coefficient * 2 ^ exponent| ≤ bound) : DenotesWithin text x bound := by
  refine ⟨_, hdenoted, ?_⟩
  rw [Binary64.rational_of_ofFloat h]
  cases negative with
  | true =>
      show |-value - -(coefficient * 2 ^ exponent)| ≤ bound
      rw [neg_sub_neg, abs_sub_comm]
      exact hle
  | false => exact hle

/-- **From `leastPositional` on** the text is `Succinct`, with at most `resultPlaces`, and within half of the
last one. -/
theorem accurate_of_le (h : Binary64.ofFloat x = .finite negative coefficient exponent)
    (hle : Binary64.rational leastPositional ≤ coefficient * 2 ^ exponent) :
    ∃ text whole fraction, resultNumeral x = signed negative text ∧ text ≠ ['0'] ∧
      Succinct text whole fraction ∧ fraction.length ≤ resultPlaces ∧
      DenotesWithin (resultNumeral x) x (1 / 2 / 10 ^ 10) := by
  have hne := coefficient_ne_zero hle
  have htext := resultNumeral_of_positional h ((positional_iff h).mpr (.inr hle))
  rw [bne_iff_ne.mpr hne, Bool.and_true] at htext
  have hrounded : roundedPlaces coefficient exponent ≠ 0 := by
    have hleast := le_roundedPlaces hle
    omega
  obtain ⟨whole, fraction, hsuccinct, hlength, -⟩ :=
    positionalText_succinct (roundedPlaces coefficient exponent)
  refine ⟨_, whole, fraction, htext, positionalText_ne_zero hrounded, hsuccinct, hlength, ?_⟩
  rw [htext]
  refine denotesWithin_of_denoted h (denoted?_positional negative _) ?_
  have hhalf := ((Binary64.magnitude coefficient exponent).scale10 resultPlaces).abs_round_le_half
  rw [value_roundedPlaces, abs_sub_comm] at hhalf
  have hten : (0 : Rat) < 10 ^ 10 := by norm_num
  rw [le_div_iff₀ hten, ← abs_of_pos hten, ← abs_mul, sub_mul, abs_of_pos hten, div_mul_cancel₀ _ hten.ne']
  exact hhalf

/-- **Below `leastPositional`** the text is `Scientific`, with seven digits, and within half of the last
one. -/
theorem accurate_of_not_positional (h : Binary64.ofFloat x = .finite negative coefficient exponent)
    (hx : ¬Positional x) :
    ∃ text first fraction power, resultNumeral x = signed negative text ∧
      Scientific text first fraction power ∧ fraction.length = exponentialPlaces ∧
      DenotesWithin (resultNumeral x) x (1 / 2 / 10 ^ (Nat.ofDigitChars 10 power 0 + 6)) := by
  obtain ⟨rounded, k, hlower, hupper, hk, -, herror, htext, -⟩ := resultNumeral_of_not_positional h hx
  obtain ⟨first, fraction, hform, hlength, -⟩ := placed_scientific hlower hupper hk
  refine ⟨_, first, fraction, _, htext, hform, hlength, ?_⟩
  rw [htext, Nat.ofDigitChars_ten_toDigits]
  exact denotesWithin_of_denoted h (denoted?_exponential negative hlower hupper hk) herror

theorem Scientific.ne_zero (h : Scientific text first fraction power) : text ≠ ['0'] := by
  rw [h.text_eq]
  simp

theorem signed_ne_zero (h : text ≠ ['0']) (negative : Bool) : signed negative text ≠ ['0'] := by
  cases negative with
  | true => simp [signed]
  | false => exact h

/-- **The text of any finite number.** `resultNumeral x` is `0` for zero and for nothing else and has a minus
sign for what is less than zero and for nothing else. From `leastPositional` on it is `Succinct`, with ten
decimal places at most; below it is `Scientific`, with six. In both cases it denotes `x` within half a unit of
its last place (`DenotesWithin`). -/
theorem resultNumeral_accurate (x : Float) (hfinite : x.isFinite = true) :
    (resultNumeral x = ['0'] ↔ (x == 0) = true) ∧
    ((resultNumeral x).head? = some '-' ↔ x < 0) ∧
    (leastPositional ≤ x.abs → ∃ text whole fraction,
      resultNumeral x = signed (decide (x < 0)) text ∧ Succinct text whole fraction ∧
      fraction.length ≤ 10 ∧ DenotesWithin (resultNumeral x) x (1 / 2 / 10 ^ 10)) ∧
    ((x == 0) = false → x.abs < leastPositional → ∃ text first fraction power,
      resultNumeral x = signed (decide (x < 0)) text ∧ Scientific text first fraction power ∧
      fraction.length = 6 ∧
      DenotesWithin (resultNumeral x) x (1 / 2 / 10 ^ (Nat.ofDigitChars 10 power 0 + 6))) := by
  obtain ⟨negative, coefficient, exponent, h⟩ := Binary64.isFinite_iff_ofFloat.mp hfinite
  have habs := Binary64.ofFloat_abs h
  have hleast : leastPositional ≤ x.abs ↔
      Binary64.rational leastPositional ≤ coefficient * 2 ^ exponent := by
    rw [Binary64.le_iff (Binary64.isFinite_of_ofFloat ofFloat_leastPositional)
      (Binary64.isFinite_of_ofFloat habs), Binary64.rational_of_ofFloat habs]
    rfl
  by_cases hpositional : Positional x
  · rcases (positional_iff h).mp hpositional with hzero | hle
    · -- zero has neither sign nor point
      have htext : resultNumeral x = ['0'] := by
        rw [resultNumeral_of_positional h hpositional, hzero, roundedPlaces_zero, positionalText_zero,
          bne_self_eq_false, Bool.and_false]
        rfl
      have hbeq := (beq_zero_iff h).mpr hzero
      have hnot : ¬leastPositional ≤ x.abs := fun hle => coefficient_ne_zero (hleast.mp hle) hzero
      refine ⟨iff_of_true htext hbeq, ?_, fun hle => absurd hle hnot, ?_⟩
      · rw [htext, lt_zero_iff h]
        exact iff_of_false (by decide) fun hboth => hboth.2 hzero
      · intro hne
        rw [hbeq] at hne
        contradiction
    · have hne := coefficient_ne_zero hle
      have hsign := lt_zero_eq h hne
      obtain ⟨text, whole, fraction, htext, hzero, hform, hlength, hwithin⟩ := accurate_of_le h hle
      obtain ⟨c, rest, hcons, hdigit⟩ := hform.exists_cons
      refine ⟨iff_of_false ?_ ((beq_zero_iff h).not.mpr hne), ?_, fun _ => ?_, ?_⟩
      · rw [htext]
        exact signed_ne_zero hzero negative
      · rw [htext, hcons, head?_signed hdigit, ← hsign, decide_eq_true_iff]
      · rw [hsign]
        exact ⟨text, whole, fraction, htext, hform, hlength, hwithin⟩
      · intro _ hlt
        rcases hpositional with hbeq | hnot
        · exact absurd ((beq_zero_iff h).mp hbeq) hne
        · exact absurd hlt hnot
  · have hne : coefficient ≠ 0 := (intLog_of_not_positional h hpositional).1
    have hsign := lt_zero_eq h hne
    obtain ⟨text, first, fraction, power, htext, hform, hlength, hwithin⟩ :=
      accurate_of_not_positional h hpositional
    refine ⟨iff_of_false ?_ ((beq_zero_iff h).not.mpr hne), ?_, ?_, fun _ _ => ?_⟩
    · rw [htext]
      exact signed_ne_zero hform.ne_zero negative
    · rw [htext, hform.text_eq, head?_signed hform.first_digit, ← hsign, decide_eq_true_iff]
    · intro hle
      exact absurd ((positional_iff h).mpr (.inr (hleast.mp hle))) hpositional
    · rw [hsign]
      exact ⟨text, first, fraction, power, htext, hform, hlength, hwithin⟩

/-- A third below zero, and a number that is less than a millionth. -/
theorem resultNumeral_accurate_small :
    resultNumeral (-1 / 3) = "-0.3333333333".toList ∧
    DenotesWithin "-0.3333333333".toList (-1 / 3) (1 / 2 / 10 ^ 10) ∧
    resultNumeral (1 / 3000000) = "3.333333e-7".toList ∧
    ∃ text first fraction power, "3.333333e-7".toList = signed false text ∧
      Scientific text first fraction power ∧ fraction.length = 6 ∧
      DenotesWithin "3.333333e-7".toList (1 / 3000000)
        (1 / 2 / 10 ^ (Nat.ofDigitChars 10 power 0 + 6)) := by
  have hthird : resultNumeral (-1 / 3) = "-0.3333333333".toList := by decide +kernel
  have hsmall : resultNumeral (1 / 3000000) = "3.333333e-7".toList := by decide +kernel
  obtain ⟨-, -, hpositional, -⟩ := resultNumeral_accurate (-1 / 3) (by decide +kernel)
  obtain ⟨-, -, -, hexponential⟩ := resultNumeral_accurate (1 / 3000000) (by decide +kernel)
  obtain ⟨_, _, _, -, -, -, hwithin⟩ := hpositional (by decide +kernel)
  have hform := hexponential (by decide +kernel) (by decide +kernel)
  have hsign : decide ((1 / 3000000 : Float) < 0) = false := by decide +kernel
  rw [hthird] at hwithin
  rw [hsmall, hsign] at hform
  exact ⟨hthird, hwithin, hsmall, hform⟩

end

end Calculator
