import Calculator.Keyboard
import Calculator.Plot.Sample
import Calculator.Expression.Outcome
import Calculator.Proofs.Expression.Cutting
import Mathlib

/-!
# `Proofs.Expression.Spelling` — spellings of one expression

An expression can be spelled in more than one way: in letters of either case, with the signs of a
keyboard or the glyphs of a keypad, with one blank or another. Every character has a plain spelling that
settles these choices. It is of the same kind, so that a text and its plain spelling are cut at the same
places, and the pieces between the cuts stand for the same tokens. What is refused is refused in the same
words, since only characters that an expression may hold have a spelling other than themselves.

All that is ever asked about a text is which tokens it has and, if it has none, whether the letter of the
variable is in it. Texts that agree in both are read alike: they have the same tree, the same value and
the same graph.

## Contents

* `plainSpelling`, `plainSpelling_cases` — the plain spelling of a character
* `SameKind`, `plainSpelling_sameKind` — it begins and continues the same pieces
* `Token.ofLexemes_scan_plainSpelling`, `readAlike_of_plainSpelling` — texts
* `ReadAlike` — texts that are read alike, among them a text without the blanks around it and a text as
  the keypad shows it
* `SpelledAlike`, `spellings_read_alike` — texts that agree but for the choices of spelling
-/

namespace Calculator

/-- The plain spelling of a character: one blank for all, ASCII signs for glyphs, small letters for
capitals. -/
def plainSpelling (c : Char) : Char :=
  if Text.isBlank c then ' '
  else
    match Token.ofSymbol? c with
    | some (.operator sign) => sign
    | _ => c.toLower

/-- Characters of one kind begin and continue the same pieces of a text. -/
structure SameKind (c d : Char) : Prop where
  blank : Text.isBlank c = Text.isBlank d
  digit : c.isDigit = d.isDigit
  letter : c.isAlpha = d.isAlpha
  point : c = '.' ↔ d = '.'

section

variable {c : Char} {text letters : List Char} {token : Token}

/-! ## Characters -/

/-- What stands for a token by itself is of no other kind. -/
theorem Token.sameKind_of_ofSymbol? (h : Token.ofSymbol? c = some token) : SameKind c '+' := by
  unfold Token.ofSymbol? at h
  split at h
  case h_13 => exact absurd h (by simp)
  all_goals exact ⟨by decide, by decide, by decide, by decide⟩

/-- The sign that a character is read as is read as itself. -/
theorem Token.ofSymbol?_sign {sign : Char} (h : ofSymbol? c = some (.operator sign)) :
    ofSymbol? sign = some (.operator sign) := by
  unfold ofSymbol? at h
  split at h
  case h_1 | h_2 | h_12 | h_13 => exact absurd h (by simp)
  all_goals
    obtain rfl := Token.operator.inj (Option.some.inj h)
    rfl

theorem toLower_of_not_isAlpha (h : c.isAlpha = false) : c.toLower = c := by
  refine Char.toLower_eq_of_not_isUpper ?_
  simp only [Char.isAlpha, Bool.or_eq_false_iff] at h
  simp [h.1]

theorem toLower_beq_variableName_of_not_isAlpha (h : c.isAlpha = false) :
    (c.toLower == variableName) = false := by
  rw [toLower_of_not_isAlpha h, beq_eq_false_iff_ne]
  rintro rfl
  exact absurd h (by decide)

/-- **A character is a blank, a letter, an operator, or its own `plainSpelling`.** -/
theorem plainSpelling_cases (c : Char) :
    (Text.isBlank c = true ∧ plainSpelling c = ' ') ∨
    (c.isAlpha = true ∧ plainSpelling c = c.toLower) ∨
    (∃ sign, Token.ofSymbol? c = some (.operator sign) ∧ plainSpelling c = sign) ∨
    plainSpelling c = c := by
  unfold plainSpelling
  by_cases hblank : Text.isBlank c = true
  · exact .inl ⟨hblank, if_pos hblank⟩
  · rw [if_neg hblank]
    split
    · rename_i sign hsign
      exact .inr (.inr (.inl ⟨sign, hsign, rfl⟩))
    · by_cases halpha : c.isAlpha = true
      · exact .inr (.inl ⟨halpha, rfl⟩)
      · exact .inr (.inr (.inr (toLower_of_not_isAlpha (by simpa using halpha))))

theorem plainSpelling_sameKind (c : Char) : SameKind (plainSpelling c) c := by
  rcases plainSpelling_cases c with ⟨hblank, heq⟩ | ⟨halpha, heq⟩ | ⟨sign, hsign, heq⟩ | heq
  · rw [heq]
    exact
      { blank := hblank.symm
        digit := (isDigit_eq_false_of_isBlank hblank).symm
        letter := (isAlpha_eq_false_of_isBlank hblank).symm
        point := ⟨fun h => absurd h (by decide), fun h => absurd h (ne_point_of_isBlank hblank)⟩ }
  · have hlower : c.toLower.isAlpha = true := by rw [Char.isAlpha_toLower_eq_isAlpha, halpha]
    have hne : ∀ d : Char, d.isAlpha = true → d ≠ '.' := by
      rintro d hd rfl
      exact absurd hd (by decide)
    rw [heq]
    exact
      { blank := by
          rw [Text.isBlank_eq_false_of_isAlpha hlower, Text.isBlank_eq_false_of_isAlpha halpha]
        digit := by rw [isDigit_eq_false_of_isAlpha hlower, isDigit_eq_false_of_isAlpha halpha]
        letter := by rw [hlower, halpha]
        point := ⟨fun h => absurd h (hne _ hlower), fun h => absurd h (hne _ halpha)⟩ }
  · -- both are operators, and operators are of one kind
    have hc := Token.sameKind_of_ofSymbol? hsign
    have hplain := Token.sameKind_of_ofSymbol? (Token.ofSymbol?_sign hsign)
    rw [heq]
    exact
      { blank := hplain.blank.trans hc.blank.symm
        digit := hplain.digit.trans hc.digit.symm
        letter := hplain.letter.trans hc.letter.symm
        point := hplain.point.trans hc.point.symm }
  · rw [heq]
    exact ⟨rfl, rfl, rfl, .rfl⟩

theorem plainSpelling_of_isDigit (h : c.isDigit = true) : plainSpelling c = c := by
  rcases plainSpelling_cases c with ⟨hblank, -⟩ | ⟨halpha, -⟩ | ⟨sign, hsign, -⟩ | heq
  · rw [isDigit_eq_false_of_isBlank hblank] at h
    exact absurd h (by simp)
  · rw [isDigit_eq_false_of_isAlpha halpha] at h
    exact absurd h (by simp)
  · rw [(Token.sameKind_of_ofSymbol? hsign).digit] at h
    exact absurd h (by decide)
  · exact heq

theorem plainSpelling_of_isAlpha (h : c.isAlpha = true) : plainSpelling c = c.toLower := by
  unfold plainSpelling
  rw [if_neg (by simp [Text.isBlank_eq_false_of_isAlpha h])]
  split
  · rename_i sign hsign
    rw [(Token.sameKind_of_ofSymbol? hsign).letter] at h
    exact absurd h (by decide)
  · rfl

theorem plainSpelling_of_ofSymbol? {sign : Char} (h : Token.ofSymbol? c = some (.operator sign)) :
    plainSpelling c = sign := by
  have hblank : Text.isBlank c = false := (Token.sameKind_of_ofSymbol? h).blank.trans (by decide)
  unfold plainSpelling
  rw [if_neg (by simp [hblank]), h]

theorem toLower_plainSpelling_of_isAlpha (h : c.isAlpha = true) :
    (plainSpelling c).toLower = c.toLower := by
  rw [plainSpelling_of_isAlpha h, Char.toLower_toLower_eq_toLower]

/-- A symbol is spelled plainly by one that stands for the same token, and one that stands for none by
itself. -/
theorem Token.ofLexeme_symbol_plainSpelling (hblank : Text.isBlank c = false)
    (halpha : c.isAlpha = false) :
    Token.ofLexeme (.symbol (plainSpelling c)) = Token.ofLexeme (.symbol c) := by
  rcases plainSpelling_cases c with ⟨hb, -⟩ | ⟨ha, -⟩ | ⟨sign, hsign, heq⟩ | heq
  · exact absurd hb (by simp [hblank])
  · exact absurd ha (by simp [halpha])
  · simp only [Token.ofLexeme, heq, Token.ofSymbol?_sign hsign, hsign]
  · rw [heq]

theorem toLower_plainSpelling_beq (c : Char) :
    ((plainSpelling c).toLower == variableName) = (c.toLower == variableName) := by
  by_cases halpha : c.isAlpha = true
  · rw [toLower_plainSpelling_of_isAlpha halpha]
  · have hc : c.isAlpha = false := by simpa using halpha
    have hplain : (plainSpelling c).isAlpha = false := (plainSpelling_sameKind c).letter.trans hc
    rw [toLower_beq_variableName_of_not_isAlpha hc, toLower_beq_variableName_of_not_isAlpha hplain]

/-! ## Pieces -/

theorem isDigit_comp_plainSpelling : Char.isDigit ∘ plainSpelling = Char.isDigit :=
  funext fun c => (plainSpelling_sameKind c).digit

theorem isAlpha_comp_plainSpelling : Char.isAlpha ∘ plainSpelling = Char.isAlpha :=
  funext fun c => (plainSpelling_sameKind c).letter

theorem spanDigits_plainSpelling (text : List Char) :
    spanDigits (text.map plainSpelling) =
      ((spanDigits text).1, (spanDigits text).2.map plainSpelling) := by
  have hdigits : (text.takeWhile Char.isDigit).map plainSpelling = text.takeWhile Char.isDigit :=
    (List.map_congr_left fun c hc => plainSpelling_of_isDigit (List.mem_takeWhile_imp hc)).trans
      (List.map_id _)
  unfold spanDigits
  rw [List.takeWhile_map, List.dropWhile_map, isDigit_comp_plainSpelling, hdigits]

theorem head?_plainSpelling_eq_point (text : List Char) :
    (text.map plainSpelling).head? = some '.' ↔ text.head? = some '.' := by
  cases text with
  | nil => simp
  | cons c text => simpa using (plainSpelling_sameKind c).point

theorem spanNumeral_plainSpelling (text : List Char) :
    spanNumeral (text.map plainSpelling) =
      ((spanNumeral text).1, (spanNumeral text).2.map plainSpelling) := by
  have hspan := spanDigits_plainSpelling text
  by_cases hpoint : (spanDigits text).2.head? = some '.'
  · obtain ⟨fraction, hfraction⟩ := List.head?_eq_some_iff.mp hpoint
    have hplain : (spanDigits (text.map plainSpelling)).2 = '.' :: fraction.map plainSpelling := by
      rw [hspan, hfraction]
      rfl
    rw [spanNumeral_of_point hfraction, spanNumeral_of_point hplain, hspan,
      spanDigits_plainSpelling]
  · have hplain : (spanDigits (text.map plainSpelling)).2.head? ≠ some '.' := by
      rw [hspan]
      exact fun h => hpoint ((head?_plainSpelling_eq_point _).mp h)
    rw [spanNumeral_of_ne_point hpoint, spanNumeral_of_ne_point hplain, hspan]

theorem Token.ofWord_plainSpelling (h : ∀ c ∈ letters, c.isAlpha = true) :
    Token.ofWord (letters.map plainSpelling) = Token.ofWord letters := by
  have hlower : (letters.map plainSpelling).map Char.toLower = letters.map Char.toLower := by
    rw [List.map_map]
    exact List.map_congr_left fun c hc => toLower_plainSpelling_of_isAlpha (h c hc)
  unfold Token.ofWord
  rw [hlower]

/-- The pieces of a text and those of its plain spelling stand for the same tokens, one by one. -/
theorem Token.ofLexemes_scan_plainSpelling (text : List Char) :
    Token.ofLexemes (Lexeme.scan (text.map plainSpelling)) = Token.ofLexemes (Lexeme.scan text) := by
  induction text using Lexeme.scan.induct with
  | case1 => rfl
  | case2 c rest hblank ih =>
      rw [List.map_cons, Lexeme.scan_blank ((plainSpelling_sameKind c).blank.trans hblank),
        Lexeme.scan_blank hblank, ih]
  | case3 c rest hblank hdigit ih =>
      rw [List.map_cons, plainSpelling_of_isDigit hdigit, Lexeme.scan_digit hdigit,
        Lexeme.scan_digit hdigit, spanNumeral_plainSpelling, Token.ofLexemes_cons, ih,
        Token.ofLexemes_cons]
  | case4 rest hblank hdigit ih =>
      rw [List.map_cons, (plainSpelling_sameKind '.').point.mpr rfl, Lexeme.scan_point,
        Lexeme.scan_point, spanDigits_plainSpelling, Token.ofLexemes_cons, ih, Token.ofLexemes_cons]
  | case5 c rest hblank hdigit hpoint halpha ih =>
      have hletters : ∀ d ∈ c :: rest.takeWhile Char.isAlpha, d.isAlpha = true := by
        rintro d hd
        rcases List.mem_cons.mp hd with rfl | hd
        · exact halpha
        · exact List.mem_takeWhile_imp hd
      have hword := Token.ofWord_plainSpelling hletters
      rw [List.map_cons] at hword
      rw [List.map_cons, Lexeme.scan_letter ((plainSpelling_sameKind c).letter.trans halpha),
        Lexeme.scan_letter halpha, List.takeWhile_map, List.dropWhile_map,
        isAlpha_comp_plainSpelling, Token.ofLexemes_cons, ih, Token.ofLexemes_cons]
      simp only [Token.ofLexeme, hword]
  | case6 c rest hblank hdigit hpoint halpha ih =>
      simp only [Bool.not_eq_true] at hblank hdigit halpha
      have hkind := plainSpelling_sameKind c
      rw [List.map_cons, Lexeme.scan_symbol (hkind.blank.trans hblank) (hkind.digit.trans hdigit)
        (fun h => hpoint (hkind.point.mp h)) (hkind.letter.trans halpha),
        Lexeme.scan_symbol hblank hdigit hpoint halpha, Token.ofLexemes_cons, ih,
        Token.ofLexemes_cons, Token.ofLexeme_symbol_plainSpelling hblank halpha]

end

/-! ## Texts -/

/-- **Texts that are read alike**: `tokenize` gives the same tokens, or the same error instead, and
`mentionsVariable` is the same. -/
structure ReadAlike (s t : String) : Prop where
  tokens : tokenize s = tokenize t
  mentions : mentionsVariable s = mentionsVariable t

section

variable {s t u : String}

theorem ReadAlike.trans (h : ReadAlike s t) (h' : ReadAlike t u) : ReadAlike s u :=
  ⟨h.tokens.trans h'.tokens, h.mentions.trans h'.mentions⟩

theorem ReadAlike.compile (h : ReadAlike s t) : compile s = compile t := by
  rw [compile_eq_bind, compile_eq_bind, h.tokens]

theorem ReadAlike.valueOf (h : ReadAlike s t) : valueOf s = valueOf t := by
  unfold Calculator.valueOf
  rw [h.compile]

theorem ReadAlike.evaluate (h : ReadAlike s t) : evaluate s = evaluate t := by
  unfold Calculator.evaluate
  rw [h.valueOf]

theorem ReadAlike.curve (h : ReadAlike s t) (domain : Interval) (steps : Nat) :
    curve s domain steps = curve t domain steps := by
  unfold Calculator.curve
  rw [h.compile]

/-- Two texts are read alike if they have the same tokens, and the letter of the variable stands in both
of them or in neither. -/
theorem readAlike_of_letter (htokens : tokenize s = tokenize t)
    (hletter : (s.toList.any fun c => c.toLower == variableName) =
      t.toList.any fun c => c.toLower == variableName) : ReadAlike s t := by
  refine ⟨htokens, ?_⟩
  unfold mentionsVariable
  rw [htokens]
  cases tokenize t with
  | ok tokens => rfl
  | error e => exact hletter

/-- **Texts with the same `plainSpelling` are `ReadAlike`.** -/
theorem readAlike_of_plainSpelling
    (h : s.toList.map plainSpelling = t.toList.map plainSpelling) : ReadAlike s t := by
  have hany : ∀ text : List Char,
      ((text.map plainSpelling).any fun c => c.toLower == variableName) =
        text.any fun c => c.toLower == variableName := by
    intro text
    rw [List.any_map]
    exact congrArg text.any (funext toLower_plainSpelling_beq)
  refine readAlike_of_letter ?_ ?_
  · unfold tokenize
    rw [← Token.ofLexemes_scan_plainSpelling s.toList, h, Token.ofLexemes_scan_plainSpelling]
  · rw [← hany s.toList, h, hany]

/-- The blanks around a text do not matter. -/
theorem readAlike_trim (text : List Char) :
    ReadAlike (String.ofList (Text.trim text)) (String.ofList text) := by
  refine readAlike_of_letter ?_ ?_
  · unfold tokenize
    rw [String.toList_ofList, String.toList_ofList, Lexeme.scan_trim]
  · obtain ⟨before, after, htext, hbefore, hafter⟩ := Text.exists_trim text
    have hblank : ∀ blanks : List Char, (∀ c ∈ blanks, Text.isBlank c = true) →
        (blanks.any fun c => c.toLower == variableName) = false := by
      intro blanks hall
      rw [List.any_eq_false]
      intro c hc
      simp [toLower_beq_variableName_of_not_isAlpha (isAlpha_eq_false_of_isBlank (hall c hc))]
    rw [String.toList_ofList, String.toList_ofList]
    calc ((Text.trim text).any fun c => c.toLower == variableName)
        = (before ++ Text.trim text ++ after).any fun c => c.toLower == variableName := by
          rw [List.any_append, List.any_append, hblank before hbefore, hblank after hafter,
            Bool.false_or, Bool.or_false]
      _ = text.any fun c => c.toLower == variableName := by rw [← htext]

theorem plainSpelling_keypadGlyph (c : Char) : plainSpelling (keypadGlyph c) = plainSpelling c := by
  unfold keypadGlyph
  split
  · decide
  · decide
  · rfl

/-- The keypad's signs are read as the keyboard's. -/
theorem readAlike_keypadGlyph (text : List Char) :
    ReadAlike (String.ofList (text.map keypadGlyph)) (String.ofList text) := by
  refine readAlike_of_plainSpelling ?_
  rw [String.toList_ofList, String.toList_ofList, List.map_map]
  exact List.map_congr_left fun c _ => plainSpelling_keypadGlyph c

/-! ## Spellings of one text -/

/-- **Characters that are spellings of one another**: a `letter` in either case, the signs of a `product`, of
a `quotient` or of a `difference`, and all blanks. -/
inductive SpelledAlike : Char → Char → Prop
  | same (c : Char) : SpelledAlike c c
  | letter {c d : Char} (left : c.isAlpha = true) (right : d.isAlpha = true)
      (lower : c.toLower = d.toLower) : SpelledAlike c d
  | product {c d : Char} (left : c ∈ ['*', '×', '·']) (right : d ∈ ['*', '×', '·']) : SpelledAlike c d
  | quotient {c d : Char} (left : c ∈ ['/', '÷']) (right : d ∈ ['/', '÷']) : SpelledAlike c d
  | difference {c d : Char} (left : c ∈ ['-', '−']) (right : d ∈ ['-', '−']) : SpelledAlike c d
  | blank {c d : Char} (left : Text.isBlank c = true) (right : Text.isBlank d = true) :
      SpelledAlike c d

/-- They have one plain spelling. -/
theorem SpelledAlike.plainSpelling_eq {c d : Char} (h : SpelledAlike c d) :
    plainSpelling c = plainSpelling d := by
  cases h with
  | same => rfl
  | letter hc hd hlower => rw [plainSpelling_of_isAlpha hc, plainSpelling_of_isAlpha hd, hlower]
  | product hc hd =>
      have hsign : ∀ sign ∈ ['*', '×', '·'], Token.ofSymbol? sign = some (.operator '*') := by
        simp [Token.ofSymbol?]
      rw [plainSpelling_of_ofSymbol? (hsign c hc), plainSpelling_of_ofSymbol? (hsign d hd)]
  | quotient hc hd =>
      have hsign : ∀ sign ∈ ['/', '÷'], Token.ofSymbol? sign = some (.operator '/') := by
        simp [Token.ofSymbol?]
      rw [plainSpelling_of_ofSymbol? (hsign c hc), plainSpelling_of_ofSymbol? (hsign d hd)]
  | difference hc hd =>
      have hsign : ∀ sign ∈ ['-', '−'], Token.ofSymbol? sign = some (.operator '-') := by
        simp [Token.ofSymbol?]
      rw [plainSpelling_of_ofSymbol? (hsign c hc), plainSpelling_of_ofSymbol? (hsign d hd)]
  | blank hc hd => rw [plainSpelling, plainSpelling, if_pos hc, if_pos hd]

theorem map_plainSpelling_eq {left right : List Char} (h : List.Forall₂ SpelledAlike left right) :
    left.map plainSpelling = right.map plainSpelling := by
  induction h with
  | nil => rfl
  | cons hchar _ ih => rw [List.map_cons, List.map_cons, hchar.plainSpelling_eq, ih]

/-- **Spellings of one text.** Texts whose characters are `SpelledAlike` have the same outcome of `tokenize`,
`mentionsVariable`, `compile`, `valueOf` and `evaluate`, and the same `curve` over any stretch. -/
theorem spellings_read_alike (h : List.Forall₂ SpelledAlike s.toList t.toList) :
    tokenize s = tokenize t ∧ mentionsVariable s = mentionsVariable t ∧ compile s = compile t ∧
      valueOf s = valueOf t ∧ evaluate s = evaluate t ∧
      ∀ domain steps, curve s domain steps = curve t domain steps := by
  have halike := readAlike_of_plainSpelling (map_plainSpelling_eq h)
  exact ⟨halike.tokens, halike.mentions, halike.compile, halike.valueOf, halike.evaluate,
    halike.curve⟩

/-- One product in two spellings, and a text that is refused in either of them for the same sign. -/
theorem spellings_read_alike_product :
    List.Forall₂ SpelledAlike "2×Ln(X)−\u00a01÷E".toList "2·lN(x)- 1/e".toList ∧
      (∀ domain steps, curve "2×Ln(X)−\u00a01÷E" domain steps = curve "2·lN(x)- 1/e" domain steps) ∧
      mentionsVariable "2×Ln(X)−\u00a01÷E" = true ∧
      tokenize "é×\tX" = tokenize "é· x" ∧
      tokenize "é· x" = .error (.malformed (.unknownCharacter 'é')) ∧
      mentionsVariable "é×\tX" = true := by
  have hproduct : List.Forall₂ SpelledAlike "2×Ln(X)−\u00a01÷E".toList "2·lN(x)- 1/e".toList :=
    .cons (.same '2') <| .cons (.product (by decide) (by decide)) <|
    .cons (.letter (by decide) (by decide) (by decide)) <|
    .cons (.letter (by decide) (by decide) (by decide)) <| .cons (.same '(') <|
    .cons (.letter (by decide) (by decide) (by decide)) <| .cons (.same ')') <|
    .cons (.difference (by decide) (by decide)) <| .cons (.blank (by decide) (by decide)) <|
    .cons (.same '1') <| .cons (.quotient (by decide) (by decide)) <|
    .cons (.letter (by decide) (by decide) (by decide)) .nil
  have hrefused : List.Forall₂ SpelledAlike "é×\tX".toList "é· x".toList :=
    .cons (.same 'é') <| .cons (.product (by decide) (by decide)) <|
    .cons (.blank (by decide) (by decide)) <|
    .cons (.letter (by decide) (by decide) (by decide)) .nil
  obtain ⟨-, -, -, -, -, hcurve⟩ := spellings_read_alike hproduct
  obtain ⟨htokens, -⟩ := spellings_read_alike hrefused
  exact ⟨hproduct, hcurve, by decide +kernel, htokens, by decide +kernel, by decide +kernel⟩

end

end Calculator
