import Calculator.Proofs.Expression.Failure
import Calculator.Proofs.Expression.Normal
import Calculator.Proofs.Expression.Strictness
import Calculator.Proofs.Grammar.Atoms
import Calculator.Proofs.Grammar.Substitution
import Calculator.Proofs.Number.Arithmetic
import Calculator.Proofs.Number.Exponential

/-!
# `Proofs.Expression.TypedBack` — results as expressions

The text of a result can be typed back. Without an exponent it is a numeral, perhaps with a sign, and it
is the text of its own value: the number that is read is the nearest one to what is shown, so it is no
further from it than the number that was rounded.

The text of a result with an exponent is an expression too, but not one for that result. A numeral ends at
the letter, which is Euler's constant, and the sign of the exponent subtracts: what is typed back is the
product of the digits and the constant, less the exponent.

## Contents

* `Lexeme.scan_spelled_append` — a numeral with something behind it
* `Token.signedNumber`, `Expr.signedNumber` — a number with the sign that is typed in front of it
* `evaluate_of_derives` — from tokens to what is shown
* `evaluate_positional`, `evaluate_exponential` — both kinds of results
* `results_typed_back` — any result
-/

namespace Calculator

section

variable {text whole fraction rest : List Char} {c : Char} {tokens : List Token} {tree : Expr}
  {value x : Float} {negative : Bool} {coefficient nesting : Nat} {exponent : Int}

/-! ## Pieces of a result -/

/-- A numeral ends where neither a digit nor a point follows. -/
theorem Lexeme.scan_spelled_append (h : SpelledBy text whole fraction) (hdigit : c.isDigit = false)
    (hpoint : c ≠ '.') (rest : List Char) :
    scan (text ++ c :: rest) = .numeral text :: scan (c :: rest) := by
  obtain ⟨first, digits, rfl⟩ := List.exists_cons_of_ne_nil h.whole_ne_nil
  have hfirst := h.whole_digits first List.mem_cons_self
  have hdigits : ∀ d ∈ digits, d.isDigit = true :=
    fun d hd => h.whole_digits d (List.mem_cons_of_mem first hd)
  rcases h.text_eq with ⟨rfl, -⟩ | rfl
  · have hspan : spanDigits (digits ++ c :: rest) = (digits, c :: rest) :=
      spanDigits_append hdigits (by simpa using hdigit)
    rw [List.cons_append, scan_digit hfirst, spanNumeral_of_ne_point (by simpa [hspan] using hpoint),
      hspan]
  · have hspan : spanDigits (digits ++ '.' :: (fraction ++ c :: rest)) =
        (digits, '.' :: (fraction ++ c :: rest)) := spanDigits_append hdigits (by simp)
    have hfraction : spanDigits (fraction ++ c :: rest) = (fraction, c :: rest) :=
      spanDigits_append h.fraction_digits (by simpa using hdigit)
    rw [List.cons_append, List.cons_append, List.append_assoc, List.cons_append, scan_digit hfirst,
      spanNumeral_of_point (by rw [hspan]), hspan, hfraction]

/-- A number with the sign in front of it, as it is typed. -/
def Token.signedNumber (negative : Bool) (value : Float) : List Token :=
  if negative then [.operator '-', .number value] else [.number value]

/-- A number with the sign in front of it, as it is read. -/
def Expr.signedNumber (negative : Bool) (value : Float) : Expr :=
  if negative then .neg (.number value) else .number value

/-- A number with the sign in front of it. -/
def withSign (negative : Bool) (value : Float) : Float := if negative then -value else value

theorem derives_signedNumber (negative : Bool) (value : Float) :
    ∃ nesting ≤ 1, Derives .signed nesting (Token.signedNumber negative value)
      (Expr.signedNumber negative value) := by
  have hnumber : Derives .signed 0 [.number value] (.number value) :=
    .ofPower (.ofPrimary (.number value))
  cases negative with
  | true => exact ⟨1, le_rfl, .minus hnumber⟩
  | false => exact ⟨0, Nat.zero_le 1, hnumber⟩

theorem length_signedNumber_le (negative : Bool) (value : Float) :
    (Token.signedNumber negative value).length ≤ 2 := by
  cases negative with
  | true => exact le_rfl
  | false => exact Nat.le_succ 1

theorem isFinite_withSign (h : value.isFinite = true) : (withSign negative value).isFinite = true := by
  cases negative with
  | true => exact Binary64.isFinite_neg h
  | false => exact h

theorem requireFinite_of_isFinite (h : value.isFinite = true) : requireFinite value = .ok value :=
  if_pos h

theorem Expr.eval_signedNumber (h : value.isFinite = true) :
    (Expr.signedNumber negative value).eval none = .ok (withSign negative value) := by
  have hnumber : (Expr.number value).eval none = .ok value := requireFinite_of_isFinite h
  cases negative with
  | true =>
      show (Expr.neg (.number value)).eval none = .ok (-value)
      rw [eval_neg, hnumber]
      exact requireFinite_of_isFinite (Binary64.isFinite_neg h)
  | false => exact hnumber

/-- The sign in front of a text is a token by itself. -/
theorem tokenize_signed {number : Float} {others : List Token} (negative : Bool)
    (h : Token.ofLexemes (Lexeme.scan text) = .ok (.number number :: others)) :
    tokenize (String.ofList (signed negative text)) =
      .ok (Token.signedNumber negative number ++ others) := by
  unfold tokenize
  rw [String.toList_ofList]
  cases negative with
  | true =>
      have hscan : Lexeme.scan ('-' :: text) = .symbol '-' :: Lexeme.scan text :=
        Lexeme.scan_symbol (by decide) (by decide) (by decide) (by decide)
      show Token.ofLexemes (Lexeme.scan ('-' :: text)) = _
      rw [hscan, Token.ofLexemes_cons, h]
      rfl
  | false => exact h

/-! ## From tokens to what is shown -/

/-- Tokens with a derivation and a value are shown as the value. -/
theorem evaluate_of_derives {input : String} (htokens : tokenize input = .ok tokens)
    (hd : Derives .sum nesting tokens tree) (hnesting : nesting ≤ nestingLimit)
    (hlength : tokens.length ≤ tokenLimit) (hvalue : tree.eval none = .ok value) :
    evaluate input = .number (String.ofList (resultNumeral value)) := by
  have hcompile : compile input = .ok tree :=
    compile_eq_ok_iff.mpr ⟨tokens, htokens, DerivesWithin.ofTokens ⟨nesting, hnesting, hd⟩ hlength⟩
  exact evaluate_eq_number_iff.mpr ⟨value, (valueOf_of_compile hcompile).trans hvalue, rfl⟩

/-! ## Results without an exponent -/

/-- A numeral with a sign is shown as the number that is read, with the sign. -/
theorem evaluate_signed_spelled (h : SpelledBy text whole fraction)
    (hfinite : ((Decimal.ofDigits whole fraction 0).toFloat false).isFinite = true) (negative : Bool) :
    evaluate (String.ofList (signed negative text)) =
      .number (String.ofList
        (resultNumeral (withSign negative ((Decimal.ofDigits whole fraction 0).toFloat false)))) := by
  have htokens := tokenize_signed negative (Token.ofLexemes_scan_spelled h)
  rw [List.append_nil] at htokens
  obtain ⟨nesting, hnesting, hd⟩ :=
    derives_signedNumber negative ((Decimal.ofDigits whole fraction 0).toFloat false)
  exact evaluate_of_derives htokens (.ofProduct (.ofSigned hd)) (hnesting.trans (by decide))
    ((length_signedNumber_le _ _).trans (by decide)) (Expr.eval_signedNumber hfinite)

theorem ofFloat_withSign (sign : Bool)
    (h : Binary64.ofFloat value = .finite negative coefficient exponent) :
    Binary64.ofFloat (withSign sign value) = .finite (sign ^^ negative) coefficient exponent := by
  cases sign with
  | true =>
      show Binary64.ofFloat (-value) = _
      rw [Bool.true_xor]
      exact Binary64.ofFloat_neg h
  | false =>
      rw [Bool.false_xor]
      exact h

/-- **A result without an exponent** (`Positional`) is the result of its own `resultNumeral`. -/
theorem evaluate_positional (hfinite : x.isFinite = true) (hx : Positional x) :
    evaluate (String.ofList (resultNumeral x)) = .number (String.ofList (resultNumeral x)) := by
  obtain ⟨negative, coefficient, exponent, h⟩ := Binary64.isFinite_iff_ofFloat.mp hfinite
  obtain ⟨whole, fraction, hspelled, hvalue⟩ := positionalText_spelled (roundedPlaces coefficient exponent)
  -- the number that is read is such a result again, and zero if this one is
  obtain ⟨coefficient', exponent', hread, hpositional, hzero, hrounded⟩ := hx.reread h hvalue
  have hnumber := Binary64.isFinite_of_ofFloat hread
  have hsigned := ofFloat_withSign (negative && coefficient != 0) hread
  have hpositional' := (positional_iff hsigned).mpr ((positional_iff hread).mp hpositional)
  have hsign : (((negative && coefficient != 0) ^^ false) && coefficient' != 0) =
      (negative && coefficient != 0) := by
    -- the sign is written exactly if there is something to it
    have hne : (coefficient' != 0) = (coefficient != 0) := by
      rw [Bool.eq_iff_iff, bne_iff_ne, bne_iff_ne, ne_eq, hzero]
    rw [hne, Bool.xor_false, Bool.and_assoc, Bool.and_self]
  rw [resultNumeral_of_positional h hx, evaluate_signed_spelled hspelled hnumber,
    resultNumeral_of_positional hsigned hpositional', hrounded, hsign]

/-! ## Results with an exponent -/

/-- The pieces behind the digits of such a result. -/
theorem Lexeme.scan_exponent (power : List Char) :
    scan ('e' :: '-' :: power) = .word ['e'] :: .symbol '-' :: scan power := by
  have hsymbol : scan ('-' :: power) = .symbol '-' :: scan power :=
    scan_symbol (by decide) (by decide) (by decide) (by decide)
  rw [← hsymbol]
  exact scan_letter (by decide)

theorem toDigits_spelled (n : Nat) : SpelledBy (Nat.toDigits 10 n) (Nat.toDigits 10 n) [] :=
  ⟨Nat.toDigits_ne_nil, isDigit_of_mem_toDigits, fun _ hc => absurd hc List.not_mem_nil,
    .inl ⟨rfl, rfl⟩⟩

theorem value_toDigits (n : Nat) : (Decimal.ofDigits (Nat.toDigits 10 n) [] 0).value = n := by
  rw [Decimal.ofDigits, List.append_nil, Nat.ofDigitChars_ten_toDigits, Decimal.value]
  simp

/-- A decimal with places enough is read as a number with the same bound. -/
theorem Decimal.toFloat_bounded {d : Decimal} {n : Nat} (h : d.value = n / 10 ^ 10) {k : Nat}
    (hk : k ≤ 1000) (hle : d.value ≤ 2 ^ k) :
    (d.toFloat false).isFinite = true ∧ |Binary64.rational (d.toFloat false)| ≤ 2 ^ k := by
  have hnonneg : 0 ≤ d.value := by
    rw [h]
    positivity
  have hlt : d.value < 2 ^ (1024 : Int) := by
    have hpower : (2 : Rat) ^ (k : Int) < 2 ^ (1024 : Int) :=
      zpow_lt_zpow_right₀ one_lt_two (by omega)
    rw [zpow_natCast] at hpower
    exact hle.trans_lt hpower
  have hrounded := Binary64.isRounded_nearest d.toRatio
  rw [Decimal.value_toRatio] at hrounded
  rw [Decimal.toFloat_eq_nearest (d.value_eq_zero_or h) hlt]
  exact hrounded.bounded k hk (by rwa [abs_of_nonneg hnonneg])

/-- The digits of a result with an exponent are read as a number. -/
theorem toFloat_placed_bounded {n : Nat} (h : n ≤ 10 ^ 7) :
    let d := Decimal.ofDigits (Nat.toDigits 10 (n / 10 ^ exponentialPlaces))
      (padDigits exponentialPlaces (n % 10 ^ exponentialPlaces)) 0
    (d.toFloat false).isFinite = true ∧ |Binary64.rational (d.toFloat false)| ≤ 2 ^ 4 := by
  intro d
  have hvalue : d.value = n / 10 ^ 6 := value_placed (by decide) n
  have hcast : (n : Rat) ≤ 10 ^ 7 := by exact_mod_cast h
  refine Decimal.toFloat_bounded (n := n * 10 ^ 4) ?_ (by decide) ?_
  · rw [hvalue, div_eq_div_iff (by norm_num) (by norm_num)]
    push_cast
    ring
  · rw [hvalue, div_le_iff₀ (by norm_num)]
    refine hcast.trans ?_
    norm_num

/-- So is its exponent. -/
theorem toFloat_toDigits_bounded {n : Nat} (h : n ≤ 1074) :
    let d := Decimal.ofDigits (Nat.toDigits 10 n) [] 0
    (d.toFloat false).isFinite = true ∧ |Binary64.rational (d.toFloat false)| ≤ 2 ^ 11 := by
  intro d
  have hvalue : d.value = n := value_toDigits n
  have hcast : (n : Rat) ≤ 1074 := by exact_mod_cast h
  refine Decimal.toFloat_bounded (n := n * 10 ^ 10) ?_ (by decide) ?_
  · rw [hvalue, Nat.cast_mul, Nat.cast_pow, Nat.cast_ofNat, mul_div_cancel_right₀ _ (by norm_num)]
  · rw [hvalue]
    refine hcast.trans ?_
    norm_num

theorem value_e_bounded :
    Constant.e.isFinite = true ∧ |Binary64.rational Constant.e| ≤ 2 ^ 2 := by
  have hview : Binary64.ofFloat Constant.e = .finite false 6121026514868073 (-51) := by
    decide +kernel
  refine ⟨Binary64.isFinite_of_ofFloat hview, ?_⟩
  rw [Binary64.rational_of_ofFloat hview]
  norm_num [Binary64.signedValue, abs_le]

/-- The tree of a result with an exponent. -/
def Expr.exponential (negative : Bool) (digits power : Float) : Expr :=
  .binary '-' (.binary '*' (.signedNumber negative digits) (.constant "e")) (.number power)

theorem derives_exponential (negative : Bool) (digits power : Float) :
    ∃ nesting ≤ 1, Derives .sum nesting
      (Token.signedNumber negative digits ++ [.word "e", .operator '-', .number power])
      (Expr.exponential negative digits power) := by
  obtain ⟨nesting, hnesting, hd⟩ := derives_signedNumber negative digits
  have hconstant : Derives .signed 0 [.word "e"] (.constant "e") :=
    .ofPower (.ofPrimary (.constant (by decide)))
  have hproduct := Derives.juxtaposition rfl (.ofSigned hd) hconstant
  have hpower : Derives .product 0 [.number power] (.number power) :=
    .ofSigned (.ofPower (.ofPrimary (.number power)))
  have hsum := Derives.addition (.inr rfl) (.ofProduct hproduct) hpower
  rw [List.append_assoc] at hsum
  exact ⟨_, by omega, hsum⟩

theorem Expr.eval_exponential {digits power : Float} (hdigits : digits.isFinite = true)
    (hpower : power.isFinite = true)
    (hproduct : (withSign negative digits * Constant.e).isFinite = true)
    (hvalue : (withSign negative digits * Constant.e - power).isFinite = true) :
    (Expr.exponential negative digits power).eval none =
      .ok (withSign negative digits * Constant.e - power) := by
  have hconstant : (Expr.constant "e").eval none = .ok Constant.e :=
    requireFinite_of_isFinite value_e_bounded.1
  have hnumber : (Expr.number power).eval none = .ok power := requireFinite_of_isFinite hpower
  have hleft : (Expr.binary '*' (.signedNumber negative digits) (.constant "e")).eval none =
      .ok (withSign negative digits * Constant.e) := by
    rw [eval_binary, eval_signedNumber hdigits, hconstant]
    exact requireFinite_of_isFinite hproduct
  rw [exponential, eval_binary, hleft, hnumber]
  exact requireFinite_of_isFinite hvalue

theorem abs_rational_withSign (h : value.isFinite = true) :
    |Binary64.rational (withSign negative value)| = |Binary64.rational value| := by
  cases negative with
  | true =>
      show |Binary64.rational (-value)| = _
      rw [Binary64.rational_neg h, abs_neg]
  | false => rfl

/-- The text is cut behind the digits, behind the letter and behind the sign. -/
theorem Token.ofLexemes_scan_exponential {text' whole' fraction' : List Char}
    (h : SpelledBy text whole fraction) (h' : SpelledBy text' whole' fraction') :
    ofLexemes (Lexeme.scan (text ++ 'e' :: '-' :: text')) =
      .ok [.number ((Decimal.ofDigits whole fraction 0).toFloat false), .word "e",
        .operator '-', .number ((Decimal.ofDigits whole' fraction' 0).toFloat false)] := by
  have htokens := ofLexemes_scan_spelled h
  rw [Lexeme.scan_spelled h] at htokens
  rw [Lexeme.scan_spelled_append h (by decide) (by decide), Lexeme.scan_exponent,
    ← List.singleton_append, ofLexemes_append, htokens, ofLexemes_cons, ofLexemes_cons,
    ofLexemes_scan_spelled h']
  rfl

/-- Neither the product nor the difference overflows. -/
theorem isFinite_exponential {digits power : Float} (hdigits : digits.isFinite = true)
    (hpower : power.isFinite = true) (hle : |Binary64.rational digits| ≤ 2 ^ 4)
    (hle' : |Binary64.rational power| ≤ 2 ^ 11) (negative : Bool) :
    (withSign negative digits * Constant.e).isFinite = true ∧
      (withSign negative digits * Constant.e - power).isFinite = true := by
  obtain ⟨he, hele⟩ := value_e_bounded
  have hproduct : |Binary64.rational (withSign negative digits) * Binary64.rational Constant.e| ≤
      2 ^ 6 := by
    rw [abs_mul, abs_rational_withSign hdigits]
    calc |Binary64.rational digits| * |Binary64.rational Constant.e| ≤ 2 ^ 4 * 2 ^ 2 := by gcongr
      _ = 2 ^ 6 := by norm_num
  obtain ⟨hfinite, hbounded⟩ :=
    (Binary64.isRounded_mul (isFinite_withSign hdigits) he).bounded 6 (by decide) hproduct
  have hdifference : |Binary64.rational (withSign negative digits * Constant.e) -
      Binary64.rational power| ≤ 2 ^ 12 := by
    refine (abs_sub _ _).trans ?_
    calc |Binary64.rational (withSign negative digits * Constant.e)| + |Binary64.rational power|
        ≤ 2 ^ 6 + 2 ^ 11 := by gcongr
      _ ≤ 2 ^ 12 := by norm_num
  exact ⟨hfinite, ((Binary64.isRounded_sub hfinite hpower).bounded 12 (by decide) hdifference).1⟩

/-- Digits, the letter, the sign and digits again are read as a product and a difference. -/
theorem evaluate_digits_exponent {text' whole' fraction' : List Char} {d d' : Decimal}
    (h : SpelledBy text whole fraction) (h' : SpelledBy text' whole' fraction')
    (hd : Decimal.ofDigits whole fraction 0 = d) (hd' : Decimal.ofDigits whole' fraction' 0 = d')
    (hdigits : (d.toFloat false).isFinite = true ∧ |Binary64.rational (d.toFloat false)| ≤ 2 ^ 4)
    (hpower : (d'.toFloat false).isFinite = true ∧ |Binary64.rational (d'.toFloat false)| ≤ 2 ^ 11)
    (negative : Bool) :
    evaluate (String.ofList (signed negative (text ++ 'e' :: '-' :: text'))) =
      .number (String.ofList (resultNumeral
        (withSign negative (d.toFloat false) * Constant.e - d'.toFloat false))) := by
  have htokens := tokenize_signed negative (Token.ofLexemes_scan_exponential h h')
  rw [hd, hd'] at htokens
  obtain ⟨nesting, hnesting, hderives⟩ :=
    derives_exponential negative (d.toFloat false) (d'.toFloat false)
  have hlength : (Token.signedNumber negative (d.toFloat false) ++
      [Token.word "e", .operator '-', .number (d'.toFloat false)]).length ≤
        tokenLimit := by
    rw [List.length_append]
    exact (Nat.add_le_add_right (length_signedNumber_le _ _) 3).trans (by decide)
  obtain ⟨hproduct, hdifference⟩ :=
    isFinite_exponential hdigits.1 hpower.1 hdigits.2 hpower.2 negative
  exact evaluate_of_derives htokens hderives (hnesting.trans (by decide)) hlength
    (Expr.eval_exponential hdigits.1 hpower.1 hproduct hdifference)

/-- **A result with an exponent** is typed back as its digits times `Constant.e`, less what stands behind the
sign. -/
theorem evaluate_exponential (hfinite : x.isFinite = true) (hx : ¬Positional x) :
    ∃ (negative : Bool) (digits power : List Char) (m k : Float),
      resultNumeral x = signed negative (digits ++ 'e' :: '-' :: power) ∧
      tokenize (String.ofList digits) = .ok [.number m] ∧
      tokenize (String.ofList power) = .ok [.number k] ∧
      evaluate (String.ofList (resultNumeral x)) =
        .number (String.ofList (resultNumeral (withSign negative m * Constant.e - k))) := by
  obtain ⟨negative, coefficient, exponent, h⟩ := Binary64.isFinite_iff_ofFloat.mp hfinite
  obtain ⟨rounded, power, -, hrounded, -, hpower, -, htext, -⟩ := resultNumeral_of_not_positional h hx
  have hplaces : 0 < exponentialPlaces := by decide
  obtain ⟨-, hspelled⟩ := placed_spelled hplaces rounded
  have hspelled' := toDigits_spelled power
  have hshown := evaluate_digits_exponent hspelled hspelled' rfl rfl
    (toFloat_placed_bounded hrounded.le) (toFloat_toDigits_bounded hpower) negative
  rw [← htext] at hshown
  refine ⟨negative, _, _, _, _, htext, ?_, ?_, hshown⟩
  · unfold tokenize
    rw [String.toList_ofList]
    exact Token.ofLexemes_scan_spelled hspelled
  · unfold tokenize
    rw [String.toList_ofList]
    exact Token.ofLexemes_scan_spelled hspelled'

/-! ## Any result -/

/-- **Results typed back.** If `x` is shown without an exponent (`Positional`), `evaluate` of its
`resultNumeral` is that numeral. The numeral of any other finite number is read too: the letter `e` in it is
`Constant.e`, and the sign behind the letter subtracts. -/
theorem results_typed_back (x : Float) (hfinite : x.isFinite = true) :
    (Positional x →
      evaluate (String.ofList (resultNumeral x)) = .number (String.ofList (resultNumeral x))) ∧
    (¬Positional x → ∃ (negative : Bool) (digits power : List Char) (m k : Float),
      resultNumeral x = signed negative (digits ++ 'e' :: '-' :: power) ∧
      tokenize (String.ofList digits) = .ok [.number m] ∧
      tokenize (String.ofList power) = .ok [.number k] ∧
      evaluate (String.ofList (resultNumeral x)) =
        .number (String.ofList (resultNumeral (withSign negative m * Constant.e - k)))) :=
  ⟨evaluate_positional hfinite, evaluate_exponential hfinite⟩

/-- A third and its text, and a number that is too small for its places. -/
theorem results_typed_back_third :
    evaluate "-0.3333333333" = .number "-0.3333333333" ∧
    ∃ text, evaluate "-2.500000e-7" = .number text := by
  have hthird := results_typed_back (-1 / 3) (by decide +kernel)
  have hsmall := results_typed_back (Decimal.toFloat true ⟨25, -8⟩) (by decide +kernel)
  have htext : String.ofList (resultNumeral (-1 / 3)) = "-0.3333333333" := by decide +kernel
  have htext' : String.ofList (resultNumeral (Decimal.toFloat true ⟨25, -8⟩)) = "-2.500000e-7" := by
    decide +kernel
  have hshown := hthird.1 (by decide +kernel)
  obtain ⟨negative, digits, power, m, k, -, -, -, hvalue⟩ := hsmall.2 (by decide +kernel)
  rw [htext] at hshown
  rw [htext'] at hvalue
  exact ⟨hshown, _, hvalue⟩

/-- A ten-millionth is not shown again when its text is typed back. -/
theorem exponent_not_typed_back :
    ¬∀ x : Float, x.isFinite = true →
      evaluate (String.ofList (resultNumeral x)) = .number (String.ofList (resultNumeral x)) := by
  intro h
  have hsmall := h (Decimal.toFloat false ⟨1, -7⟩) (by decide +kernel)
  have htext : String.ofList (resultNumeral (Decimal.toFloat false ⟨1, -7⟩)) = "1.000000e-7" := by
    decide +kernel
  have hshown : evaluate "1.000000e-7" = .number "-4.2817181715" := by decide +kernel
  rw [htext, hshown] at hsmall
  exact absurd hsmall (by decide)

end

end Calculator
