import Calculator.Expression.Outcome
import Calculator.Proofs.Number.Order
import Mathlib.Data.List.DropRight

/-!
# `Proofs.Number.Positional` — a result that is rounded can be rounded again

A result without an exponent is shown with ten places, less the zeros that end them. Read as a number
again the text gives not the result but the number nearest to the text. That number is no farther from
the text than the result is, and the result is within half of the last place: so the number rounds to the
same text, also if the result is half a place away, since then so may be the number, and both round to
the same even digit.

## Contents

* `placed_spelled`, `dropTrailing_point`, `dropTrailing_spelled` — the text, and the decimal that it
  spells
* `Positional`, `resultNumeral_of_positional` — results without an exponent
* `roundedPlaces_nearest` — reading and rounding again
* `Positional.reread` — the number that is read has the same text
-/

namespace Calculator

section

variable {places width n k : Nat} {text whole fraction digits : List Char}

/-! ## A fixed number of places -/

theorem isDigit_of_mem_toDigits : ∀ c ∈ Nat.toDigits 10 n, c.isDigit = true :=
  fun _ hc => Nat.isDigit_of_mem_toDigits (by decide) (by decide) hc

/-- The first digit is zero only in zero itself. -/
theorem head?_toDigits_ne_zero (h : n ≠ 0) : (Nat.toDigits 10 n).head? ≠ some '0' := by
  induction n using Nat.strong_induction_on with
  | _ n ih =>
      by_cases hlt : n < 10
      · rw [Nat.toDigits_of_lt_base hlt, List.head?_cons, ne_eq, Option.some.injEq]
        interval_cases n <;> first | contradiction | decide
      · -- the first digit is that of the number without its last digit
        have hshorter := ih (n / 10) (by omega) (by omega)
        rw [Nat.toDigits_of_base_le (by decide) (by omega)]
        rwa [List.head?_append_of_ne_nil _ Nat.toDigits_ne_nil]

theorem isDigit_of_mem_padDigits : ∀ c ∈ padDigits width n, c.isDigit = true := by
  intro c hc
  rcases List.mem_append.mp hc with hzero | hdigit
  · exact isDigit_of_mem_zeros c hzero
  · exact isDigit_of_mem_toDigits c hdigit

theorem length_padDigits (hwidth : 0 < width) (h : n < 10 ^ width) :
    (padDigits width n).length = width := by
  have hle : (Nat.toDigits 10 n).length ≤ width :=
    (Nat.length_toDigits_le_iff (by decide) hwidth).mpr h
  unfold padDigits
  simp only [List.length_append, List.length_replicate]
  omega

theorem ofDigitChars_padDigits (width n : Nat) : Nat.ofDigitChars 10 (padDigits width n) 0 = n := by
  unfold padDigits
  rw [Nat.ofDigitChars_append, Nat.ofDigitChars_replicate_zero, Nat.mul_zero,
    Nat.ofDigitChars_ten_toDigits]

/-- With places, a natural number is spelled by its digits before and behind the point. -/
theorem placed_spelled (hplaces : 0 < places) (n : Nat) :
    placed places n = Nat.toDigits 10 (n / 10 ^ places) ++ '.' :: padDigits places (n % 10 ^ places) ∧
      SpelledBy (placed places n) (Nat.toDigits 10 (n / 10 ^ places))
        (padDigits places (n % 10 ^ places)) := by
  have htext : placed places n =
      Nat.toDigits 10 (n / 10 ^ places) ++ '.' :: padDigits places (n % 10 ^ places) := by
    unfold placed
    rw [if_neg hplaces.ne']
    rfl
  exact ⟨htext, Nat.toDigits_ne_nil, isDigit_of_mem_toDigits, isDigit_of_mem_padDigits, .inr htext⟩

/-- The decimal that is spelled is the number divided by the power of ten. -/
theorem value_placed (hplaces : 0 < places) (n : Nat) :
    (Decimal.ofDigits (Nat.toDigits 10 (n / 10 ^ places)) (padDigits places (n % 10 ^ places)) 0).value =
      n / 10 ^ places := by
  have hlength := length_padDigits hplaces (Nat.mod_lt n (Nat.pow_pos (by decide)))
  have hcoefficient : Nat.ofDigitChars 10
      (Nat.toDigits 10 (n / 10 ^ places) ++ padDigits places (n % 10 ^ places)) 0 = n := by
    rw [Nat.ofDigitChars_append, Nat.ofDigitChars_ten_toDigits, Nat.ofDigitChars_eq_ofDigitChars_zero,
      hlength, ofDigitChars_padDigits]
    exact Nat.div_add_mod n (10 ^ places)
  rw [Decimal.ofDigits, hcoefficient, hlength, Decimal.value, zero_sub, zpow_neg, zpow_natCast,
    div_eq_mul_inv]

/-! ## Zeros at the end -/

theorem dropTrailing_eq (text : List Char) :
    dropTrailing text = (text.rdropWhile (· == '0')).rdropWhile (· == '.') := by
  unfold dropTrailing List.rdropWhile
  rw [List.reverse_reverse]

theorem rdropWhile_append_zeros (text : List Char) (k : Nat) :
    (text ++ List.replicate k '0').rdropWhile (· == '0') = text.rdropWhile (· == '0') := by
  induction k with
  | zero => rw [List.replicate_zero, List.append_nil]
  | succ k ih => rw [List.replicate_succ', ← List.append_assoc, List.rdropWhile_concat_pos _ _ _ rfl, ih]

/-- A text is zeros, or it ends in zeros behind something else. -/
theorem exists_append_zeros (text : List Char) :
    (∃ k, text = List.replicate k '0') ∨
      ∃ front last k, last ≠ '0' ∧ text = front ++ [last] ++ List.replicate k '0' := by
  induction text using List.reverseRecOn with
  | nil => exact .inl ⟨0, rfl⟩
  | append_singleton text last ih =>
      by_cases hlast : last = '0'
      · subst hlast
        rcases ih with ⟨k, rfl⟩ | ⟨front, other, k, hother, rfl⟩
        · exact .inl ⟨k + 1, List.replicate_succ'.symm⟩
        · refine .inr ⟨front, other, k + 1, hother, ?_⟩
          rw [List.replicate_succ', List.append_assoc _ _ ['0']]
      · exact .inr ⟨text, last, 0, hlast, by rw [List.replicate_zero, List.append_nil]⟩

theorem dropTrailing_concat {last : Char} (hzero : last ≠ '0') (hpoint : last ≠ '.') (text : List Char) :
    dropTrailing (text ++ [last]) = text ++ [last] := by
  rw [dropTrailing_eq, List.rdropWhile_concat_neg _ _ _ (by simpa using hzero),
    List.rdropWhile_concat_neg _ _ _ (by simpa using hpoint)]

/-- Digits end in a digit. -/
theorem rdropWhile_point_of_digits (h : ∀ c ∈ digits, c.isDigit = true) :
    digits.rdropWhile (· == '.') = digits := by
  rw [List.rdropWhile_eq_self_iff]
  intro hne hpoint
  have hdigit := h _ (List.getLast_mem hne)
  rw [beq_iff_eq.mp hpoint] at hdigit
  exact absurd hdigit (by decide)

/-- Zeros at the end make no difference to a decimal. -/
theorem value_append_zeros (whole fraction : List Char) (k : Nat) :
    (Decimal.ofDigits whole (fraction ++ List.replicate k '0') 0).value =
      (Decimal.ofDigits whole fraction 0).value := by
  have hten : (10 : Rat) ^ k ≠ 0 := pow_ne_zero _ (by norm_num)
  rw [Decimal.ofDigits, Decimal.ofDigits, ← List.append_assoc, Nat.ofDigitChars_append,
    Nat.ofDigitChars_replicate_zero, Decimal.value, Decimal.value, zero_sub, zero_sub, zpow_neg, zpow_neg,
    zpow_natCast, zpow_natCast, List.length_append, List.length_replicate, pow_add]
  push_cast
  field_simp

/-- **The zeros that end a text** behind its point are dropped by `dropTrailing`, and the point with them if
nothing is left behind it. -/
theorem dropTrailing_point (h : SpelledBy text whole fraction) (htext : text = whole ++ '.' :: fraction) :
    ∃ shorter k, fraction = shorter ++ List.replicate k '0' ∧ shorter.getLast? ≠ some '0' ∧
      dropTrailing text = whole ++ if shorter = [] then [] else '.' :: shorter := by
  have hfraction := h.fraction_digits
  rcases exists_append_zeros fraction with ⟨k, rfl⟩ | ⟨front, last, k, hlast, rfl⟩
  · refine ⟨[], k, rfl, by simp, ?_⟩
    have hsplit : text = (whole ++ ['.']) ++ List.replicate k '0' := by
      rw [htext, List.append_assoc, List.singleton_append]
    rw [dropTrailing_eq, hsplit, rdropWhile_append_zeros, List.rdropWhile_concat_neg _ _ _ (by decide),
      List.rdropWhile_concat_pos _ _ _ rfl, rdropWhile_point_of_digits h.whole_digits, if_pos rfl,
      List.append_nil]
  · have hpoint : last ≠ '.' := by
      rintro rfl
      exact absurd (hfraction '.' (by simp)) (by decide)
    refine ⟨front ++ [last], k, rfl, by simpa using hlast, ?_⟩
    have hsplit : text = (whole ++ '.' :: front) ++ [last] ++ List.replicate k '0' := by
      rw [htext]
      simp
    rw [hsplit, dropTrailing_eq, rdropWhile_append_zeros, ← dropTrailing_eq,
      dropTrailing_concat hlast hpoint, if_neg (by simp)]
    simp

/-- **Without its zeros** a text with a point spells the same decimal (`SpelledBy`), if need be without a
point. -/
theorem dropTrailing_spelled (h : SpelledBy text whole fraction) (htext : text = whole ++ '.' :: fraction) :
    ∃ shorter, SpelledBy (dropTrailing text) whole shorter ∧
      (Decimal.ofDigits whole shorter 0).value = (Decimal.ofDigits whole fraction 0).value := by
  obtain ⟨shorter, k, hfraction, -, hshorter⟩ := dropTrailing_point h htext
  have hdigits : ∀ c ∈ shorter, c.isDigit = true := fun c hc =>
    h.fraction_digits c (hfraction ▸ List.mem_append_left _ hc)
  refine ⟨shorter, ⟨h.whole_ne_nil, h.whole_digits, hdigits, ?_⟩, ?_⟩
  · by_cases hnil : shorter = []
    · rw [if_pos hnil, List.append_nil] at hshorter
      exact .inl ⟨hshorter, hnil⟩
    · rw [if_neg hnil] at hshorter
      exact .inr hshorter
  · rw [hfraction]
    exact (value_append_zeros whole shorter k).symm

theorem rdropWhile_cons {p : Char → Bool} (h : text.rdropWhile p ≠ []) (c : Char) :
    (c :: text).rdropWhile p = c :: text.rdropWhile p := by
  have hne : (text.reverse.dropWhile p).isEmpty = false := by
    rw [Bool.eq_false_iff, ne_eq, List.isEmpty_iff]
    intro hnil
    exact h (List.reverse_eq_nil_iff.mpr hnil)
  unfold List.rdropWhile
  rw [List.reverse_cons, List.dropWhile_append, if_neg (by simp [hne]), List.reverse_append]
  rfl

/-- A sign in front of a text stays there. -/
theorem dropTrailing_cons (h : dropTrailing text ≠ []) (c : Char) :
    dropTrailing (c :: text) = c :: dropTrailing text := by
  rw [dropTrailing_eq] at h
  have hzeros : text.rdropWhile (· == '0') ≠ [] := by
    intro hnil
    rw [hnil] at h
    exact h rfl
  rw [dropTrailing_eq, dropTrailing_eq, rdropWhile_cons hzeros, rdropWhile_cons h]

end

/-! ## Results without an exponent -/

/-- A result without an exponent: zero, or one that is not too small for it. -/
def Positional (x : Float) : Prop := (x == 0) = true ∨ ¬x.abs < leastPositional

instance (x : Float) : Decidable (Positional x) :=
  inferInstanceAs (Decidable ((x == 0) = true ∨ ¬x.abs < leastPositional))

/-- A magnitude in units of the last place of a result, rounded. -/
def roundedPlaces (coefficient : Nat) (exponent : Int) : Nat :=
  ((Binary64.magnitude coefficient exponent).scale10 resultPlaces).round

/-- The text of a rounded magnitude, without its zeros. -/
def positionalText (n : Nat) : List Char := dropTrailing (placed resultPlaces n)

section

variable {x : Float} {negative : Bool} {coefficient n : Nat} {exponent : Int} {d : Decimal}

/-- The text spells the rounded magnitude. -/
theorem positionalText_spelled (n : Nat) :
    ∃ whole fraction, SpelledBy (positionalText n) whole fraction ∧
      (Decimal.ofDigits whole fraction 0).value = n / 10 ^ 10 := by
  have hplaces : 0 < resultPlaces := by decide
  obtain ⟨htext, hspelled⟩ := placed_spelled hplaces n
  obtain ⟨shorter, hshorter, hvalue⟩ := dropTrailing_spelled hspelled htext
  exact ⟨_, shorter, hshorter, hvalue.trans (value_placed (by decide) n)⟩

theorem positionalText_ne_nil (n : Nat) : positionalText n ≠ [] := by
  obtain ⟨whole, fraction, hspelled, -⟩ := positionalText_spelled n
  rcases hspelled.text_eq with ⟨htext, -⟩ | htext
  · rw [htext]
    exact hspelled.whole_ne_nil
  · rw [htext]
    simp

/-- The text begins with a digit. -/
theorem positionalText_ne_cons_minus (n : Nat) (text : List Char) : positionalText n ≠ '-' :: text := by
  obtain ⟨whole, fraction, hspelled, -⟩ := positionalText_spelled n
  obtain ⟨first, rest, rfl⟩ := List.exists_cons_of_ne_nil hspelled.whole_ne_nil
  have hfirst := hspelled.whole_digits first List.mem_cons_self
  intro heq
  have hminus : first = '-' := by
    rcases hspelled.text_eq with ⟨htext, -⟩ | htext
    · exact (List.cons.inj (htext.symm.trans heq)).1
    · exact (List.cons.inj (htext.symm.trans heq)).1
  rw [hminus] at hfirst
  exact absurd hfirst (by decide)

theorem positionalText_zero : positionalText 0 = ['0'] := by decide

/-- Nothing but zero is shown as zero. -/
theorem positionalText_ne_zero (h : n ≠ 0) : positionalText n ≠ ['0'] := by
  obtain ⟨whole, fraction, hspelled, hvalue⟩ := positionalText_spelled n
  intro hzero
  have hread := hspelled.readDecimal?
  rw [hzero] at hread
  have hdecimal : Decimal.ofDigits whole fraction 0 = ⟨0, 0⟩ :=
    (Option.some.inj (hread.symm.trans (by decide)))
  rw [hdecimal, Decimal.value, Nat.cast_zero, zero_mul, eq_comm, div_eq_zero_iff] at hvalue
  rcases hvalue with hn | hten
  · exact h (by exact_mod_cast hn)
  · exact absurd hten (by norm_num)

/-! ### The least magnitude without an exponent -/

theorem ofFloat_leastPositional :
    Binary64.ofFloat leastPositional = .finite false 4722366482869645 (-72) := rfl

theorem rational_leastPositional :
    Binary64.rational leastPositional = 4722366482869645 * 2 ^ (-72 : Int) := by
  rw [Binary64.rational_of_ofFloat ofFloat_leastPositional]
  norm_num [Binary64.signedValue]

theorem beq_zero_iff (h : Binary64.ofFloat x = .finite negative coefficient exponent) :
    (x == 0) = true ↔ coefficient = 0 := by
  rw [Binary64.beq_iff (Binary64.isFinite_of_ofFloat h) Binary64.isFinite_zero,
    Binary64.rational_zero,
    Binary64.rational_of_ofFloat h]
  have hpower : (2 : Rat) ^ exponent ≠ 0 := zpow_ne_zero _ two_ne_zero
  cases negative <;> simp [Binary64.signedValue, hpower]

theorem positional_iff (h : Binary64.ofFloat x = .finite negative coefficient exponent) :
    Positional x ↔
      coefficient = 0 ∨ Binary64.rational leastPositional ≤ coefficient * 2 ^ exponent := by
  have habs := Binary64.ofFloat_abs h
  unfold Positional
  rw [beq_zero_iff h, Binary64.lt_iff (Binary64.isFinite_of_ofFloat habs)
    (Binary64.isFinite_of_ofFloat ofFloat_leastPositional), not_lt, Binary64.rational_of_ofFloat habs]
  rfl

theorem coefficient_ne_zero (h : Binary64.rational leastPositional ≤ coefficient * 2 ^ exponent) :
    coefficient ≠ 0 := by
  rintro rfl
  rw [rational_leastPositional, Nat.cast_zero, zero_mul] at h
  exact absurd h (by norm_num)

theorem value_roundedPlaces (coefficient : Nat) (exponent : Int) :
    ((Binary64.magnitude coefficient exponent).scale10 resultPlaces).value =
      coefficient * 2 ^ exponent * 10 ^ 10 := by
  rw [Ratio.value_scale10, Binary64.value_magnitude]
  rfl

theorem roundedPlaces_zero (exponent : Int) : roundedPlaces 0 exponent = 0 := by
  unfold roundedPlaces
  refine Nat.le_zero.mp (Ratio.round_le_of_le ?_)
  rw [value_roundedPlaces]
  simp

/-- The least magnitude is less than a millionth, but it is rounded to one. -/
theorem le_round_scale10 {r : Ratio} (h : Binary64.rational leastPositional ≤ r.value) :
    10 ^ 4 ≤ (r.scale10 resultPlaces).round := by
  have hhalf := (abs_le.mp (r.scale10 resultPlaces).abs_round_le_half).2
  have hvalue : (r.scale10 resultPlaces).value = r.value * 10 ^ 10 := r.value_scale10 _
  have hleast : (9999 : Rat) + 1 / 2 < Binary64.rational leastPositional * 10 ^ 10 := by
    rw [rational_leastPositional]
    norm_num
  have hscaled : Binary64.rational leastPositional * 10 ^ 10 ≤ r.value * 10 ^ 10 := by
    gcongr
  by_contra hlt
  have hle : ((r.scale10 resultPlaces).round : Rat) ≤ 9999 := by
    exact_mod_cast Nat.lt_succ_iff.mp (not_le.mp hlt)
  rw [hvalue] at hhalf
  linarith

theorem le_roundedPlaces (h : Binary64.rational leastPositional ≤ coefficient * 2 ^ exponent) :
    10 ^ 4 ≤ roundedPlaces coefficient exponent :=
  le_round_scale10 (by rwa [Binary64.value_magnitude])

/-! ### The text -/

/-- **A result without an exponent** (`Positional`) is its `roundedPlaces` with the sign, and zero has
none. -/
theorem resultNumeral_of_positional
    (h : Binary64.ofFloat x = .finite negative coefficient exponent) (hpositional : Positional x) :
    resultNumeral x = signed (negative && coefficient != 0)
      (positionalText (roundedPlaces coefficient exponent)) := by
  have hbranch : ¬(x != 0 && decide (x.abs < leastPositional)) = true := by
    rcases hpositional with hzero | hlarge
    · simp [bne, hzero]
    · simp [hlarge]
  have hfixed : fixedNumeral resultPlaces x =
      signed negative (placed resultPlaces (roundedPlaces coefficient exponent)) := by
    unfold fixedNumeral
    rw [h]
    rfl
  unfold resultNumeral
  rw [if_neg hbranch, hfixed]
  cases negative with
  | false =>
      have hne : positionalText (roundedPlaces coefficient exponent) ≠ ['-', '0'] :=
        positionalText_ne_cons_minus _ _
      simp only [signed, Bool.false_and, Bool.false_eq_true, if_false]
      exact if_neg hne
  | true =>
      have hcons : dropTrailing ('-' :: placed resultPlaces (roundedPlaces coefficient exponent)) =
          '-' :: positionalText (roundedPlaces coefficient exponent) :=
        dropTrailing_cons (positionalText_ne_nil _) '-'
      simp only [signed, Bool.true_and, if_true, hcons]
      rcases (positional_iff h).mp hpositional with hzero | hlarge
      · subst hzero
        rw [roundedPlaces_zero, positionalText_zero]
        rfl
      · have hne : coefficient ≠ 0 := coefficient_ne_zero hlarge
        have hrounded : roundedPlaces coefficient exponent ≠ 0 := by
          have hle := le_roundedPlaces hlarge
          omega
        have htext := positionalText_ne_zero hrounded
        rw [if_neg (by simpa using htext), if_pos (by simpa using hne)]

/-! ## Reading and rounding again -/

theorem Decimal.value_eq_zero_or (d : Decimal) (h : d.value = n / 10 ^ 10) :
    d.value = 0 ∨ (2 : Rat) ^ (-1074 : Int) ≤ d.value := by
  by_cases hzero : n = 0
  · left
    rw [h, hzero, Nat.cast_zero, zero_div]
  · right
    have hone : (1 : Rat) ≤ n := by exact_mod_cast Nat.one_le_iff_ne_zero.mpr hzero
    calc (2 : Rat) ^ (-1074 : Int) ≤ 2 ^ (-34 : Int) := zpow_le_zpow_right₀ one_le_two (by decide)
      _ ≤ 1 / 10 ^ 10 := by norm_num
      _ ≤ d.value := by rw [h]; gcongr

/-- A decimal that is not beyond the numbers is read as the nearest one. -/
theorem Decimal.toFloat_eq_nearest (h : d.value = 0 ∨ (2 : Rat) ^ (-1074 : Int) ≤ d.value)
    (hlt : d.value < 2 ^ (1024 : Int)) : d.toFloat false = Binary64.nearest false d.toRatio := by
  by_cases hzero : d.coefficient = 0
  · have hvalue : (Ratio.ofNat 0).value = d.toRatio.value := by
      rw [value_toRatio, value, hzero, Ratio.value_ofNat, Nat.cast_zero, zero_mul]
    rw [toFloat_zero hzero, Binary64.nearest_congr false hvalue]
  · have hne : d.value ≠ 0 := value_ne_zero_iff.mpr hzero
    obtain ⟨hleast, hgreatest⟩ := size_bounds hzero (h.resolve_left hne) hlt
    rw [toFloat, if_neg hzero, if_neg (by omega), if_neg (by omega)]

/-- **Reading and rounding again**: the number nearest to a rounded magnitude has the same `roundedPlaces`. -/
theorem roundedPlaces_nearest (h : Binary64.Canonical coefficient exponent) (hle : exponent ≤ 971)
    (hd : d.value = roundedPlaces coefficient exponent / 10 ^ 10) :
    ∃ coefficient' exponent', Binary64.ofFloat (d.toFloat false) = .finite false coefficient' exponent' ∧
      Binary64.Nearest coefficient' exponent' d.value ∧
      roundedPlaces coefficient' exponent' = roundedPlaces coefficient exponent := by
  have hten : (0 : Rat) < 10 ^ 10 := by norm_num
  -- distances in units of the last place
  have hscale : ∀ (c : Nat) (e : Int), |(c : Rat) * 2 ^ e * 10 ^ 10 - roundedPlaces coefficient exponent| =
      |(c : Rat) * 2 ^ e - d.value| * 10 ^ 10 := by
    intro c e
    have hfactor : (c : Rat) * 2 ^ e * 10 ^ 10 - roundedPlaces coefficient exponent =
        ((c : Rat) * 2 ^ e - d.value) * 10 ^ 10 := by
      rw [hd, sub_mul, div_mul_cancel₀ _ hten.ne']
    rw [hfactor, abs_mul, abs_of_pos hten]
  have hspec := ((Binary64.magnitude coefficient exponent).scale10 resultPlaces).round_spec
  have hhalf := ((Binary64.magnitude coefficient exponent).scale10 resultPlaces).abs_round_le_half
  have hfold : ((Binary64.magnitude coefficient exponent).scale10 resultPlaces).round =
    roundedPlaces coefficient exponent := rfl
  rw [value_roundedPlaces, hfold, hscale] at hspec hhalf
  have hnear : |(coefficient : Rat) * 2 ^ exponent - d.value| < 1 := by
    have hle : |(coefficient : Rat) * 2 ^ exponent - d.value| * 1 ≤
        |(coefficient : Rat) * 2 ^ exponent - d.value| * 10 ^ 10 := by
      gcongr
      norm_num
    linarith
  have hroom := h.value_add_two_lt hle
  have hdlt : d.value < 2 ^ (1024 : Int) := by
    refine lt_trans ?_ hroom
    linarith [(abs_lt.mp hnear).1]
  obtain ⟨c, e, hc, hnearest, hfinite, -⟩ := Binary64.ofFloat_nearest d.toRatio
  rw [Decimal.value_toRatio] at hnearest
  have hcloser := hnearest coefficient exponent h
  have hclt : (c : Rat) * 2 ^ e < 2 ^ (1024 : Int) := by
    refine lt_trans ?_ hroom
    linarith [(abs_lt.mp (hcloser.trans_lt hnear)).2, (abs_lt.mp hnear).1]
  refine ⟨c, e, ?_, hnearest, ?_⟩
  · rw [Decimal.toFloat_eq_nearest (d.value_eq_zero_or hd) hdlt]
    exact hfinite hclt
  · have hscaled : |(c : Rat) * 2 ^ e - d.value| * 10 ^ 10 ≤
        |(coefficient : Rat) * 2 ^ exponent - d.value| * 10 ^ 10 := by gcongr
    refine Ratio.round_eq_iff.mpr ?_
    rw [value_roundedPlaces, hscale]
    rcases hspec with hlt | ⟨heq, heven⟩
    · exact .inl (hscaled.trans_lt hlt)
    · -- the number that is read may be half a place away as well, on whichever side
      rcases (hscaled.trans heq.le).lt_or_eq with hlt | heq'
      · exact .inl hlt
      · exact .inr ⟨heq', heven⟩

theorem canonical_leastPositional : Binary64.Canonical 4722366482869645 (-72) :=
  (Binary64.ofFloat_eq_finite_iff.mp ofFloat_leastPositional).1

/-- What is nearest to nothing is zero. -/
theorem coefficient_eq_zero_of_nearest (h : Binary64.Nearest coefficient exponent 0) :
    coefficient = 0 := by
  by_contra hne
  have hpos := Binary64.value_pos hne exponent
  have hcloser := h 0 Binary64.leastExponent Binary64.canonical_zero
  rw [Nat.cast_zero, zero_mul, sub_zero, sub_zero, abs_zero] at hcloser
  exact absurd (abs_nonpos_iff.mp hcloser) hpos.ne'

/-- What is nearest to a millionth or more is not below the least magnitude. -/
theorem leastPositional_le_of_nearest {value : Rat} (h : Binary64.Nearest coefficient exponent value)
    (hle : 1 / 10 ^ 6 ≤ value) : Binary64.rational leastPositional ≤ coefficient * 2 ^ exponent := by
  have hleast : Binary64.rational leastPositional < value := by
    refine lt_of_lt_of_le ?_ hle
    rw [rational_leastPositional]
    norm_num
  have hcloser := h _ _ canonical_leastPositional
  by_contra hlt
  rw [rational_leastPositional] at hlt hleast
  have hlt' := not_le.mp hlt
  push_cast at hcloser
  rw [abs_of_neg (by linarith), abs_of_neg (by linarith)] at hcloser
  linarith

/-- **The number that is read** from a result without an exponent is `Positional` again, and is zero if the
result is. -/
theorem Positional.reread (hpositional : Positional x)
    (h : Binary64.ofFloat x = .finite negative coefficient exponent)
    (hd : d.value = roundedPlaces coefficient exponent / 10 ^ 10) :
    ∃ coefficient' exponent', Binary64.ofFloat (d.toFloat false) = .finite false coefficient' exponent' ∧
      Positional (d.toFloat false) ∧ (coefficient' = 0 ↔ coefficient = 0) ∧
      roundedPlaces coefficient' exponent' = roundedPlaces coefficient exponent := by
  obtain ⟨hc, hle, -⟩ := Binary64.ofFloat_eq_finite_iff.mp h
  obtain ⟨c, e, hread, hnearest, hrounded⟩ := roundedPlaces_nearest hc hle hd
  rcases (positional_iff h).mp hpositional with rfl | hlarge
  · -- zero is read as zero
    rw [hd, roundedPlaces_zero, Nat.cast_zero, zero_div] at hnearest
    have hzero := coefficient_eq_zero_of_nearest hnearest
    exact ⟨c, e, hread, (positional_iff hread).mpr (.inl hzero), by simp [hzero], hrounded⟩
  · -- the least magnitude is below what is shown, so what is read is not below the least magnitude
    have hmillionth : (1 : Rat) / 10 ^ 6 ≤ d.value := by
      have hge : ((10 ^ 4 : Nat) : Rat) ≤ roundedPlaces coefficient exponent := by
        exact_mod_cast le_roundedPlaces hlarge
      rw [hd, le_div_iff₀ (by norm_num)]
      refine le_trans ?_ hge
      norm_num
    have hge := leastPositional_le_of_nearest hnearest hmillionth
    refine ⟨c, e, hread, (positional_iff hread).mpr (.inr hge), ?_, hrounded⟩
    exact iff_of_false (coefficient_ne_zero hge) (coefficient_ne_zero hlarge)

end

end Calculator
