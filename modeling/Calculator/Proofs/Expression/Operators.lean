import Calculator.Proofs.Expression.Alphabet
import Calculator.Proofs.Expression.Parts
import Calculator.Proofs.Expression.Spelling

/-!
# `Proofs.Expression.Operators` — operators on the screen and in the tokens

Two tables say which characters are operators: one is used to show a text while it is typed, the other to
read it as tokens. Both are asked about single characters only, since no letter and no character of a number
is an operator in either. So the operators that are shown and those that are read are the characters of the
text that one table or the other has, in the order of the text.

The tables differ in one character. The middle dot is read as a product and not shown as one, so that the
operators shown are those read in the texts without a middle dot, and in no others.

## Contents

* `Token.operator?`, `Operator.ofChar?` — operators among the tokens and among the characters
* `operators_of_pieces` — the operators that are read
* `filter_highlight` — the parts that are single characters
* `isSome_ofChar?_iff` — the two tables
* `operators_shown` — where they agree
-/

namespace Calculator

/-- The operator that a token is. -/
def Token.operator? : Token → Option Char
  | .operator sign => some sign
  | _ => none

/-- The operator that a character is read as. -/
def Operator.ofChar? (c : Char) : Option Char := (Token.ofSymbol? c).bind Token.operator?

/-- The characters of a piece of text. -/
def Lexeme.characters : Lexeme → List Char
  | .numeral text => text
  | .word letters => letters
  | .symbol c => [c]

/-- The operators among some tokens, each as its ASCII sign. -/
def Token.operatorSigns (tokens : List Token) : List (List Char) :=
  (tokens.filterMap Token.operator?).map fun sign => [sign]

/-- The texts of some parts, spelled plainly. -/
def plainTexts (spans : List HighlightSpan) : List (List Char) :=
  spans.map fun span => span.text.map plainSpelling

/-- The middle dot, which is read as a product. -/
def middleDot : Char := '·'

section

variable {c : Char} {text letters digits : List Char} {tokens own : List Token} {lexeme : Lexeme}
  {lexemes : List Lexeme} {sign : Char}

/-! ## The operators that are read -/

theorem Token.exists_of_ofLexemes_cons (h : ofLexemes (lexeme :: lexemes) = .ok tokens) :
    ∃ own others, ofLexeme lexeme = .ok own ∧ ofLexemes lexemes = .ok others ∧
      tokens = own ++ others := by
  rw [ofLexemes_cons] at h
  cases hown : ofLexeme lexeme with
  | error e =>
      rw [hown] at h
      exact absurd h (by simp [Except.bind])
  | ok own =>
      cases hothers : ofLexemes lexemes with
      | error e =>
          rw [hown, hothers] at h
          exact absurd h (by simp [Except.bind, Except.map])
      | ok others =>
          rw [hown, hothers] at h
          exact ⟨own, others, rfl, rfl, (Except.ok.inj h).symm⟩

theorem Operator.ofChar?_eq_some_iff :
    ofChar? c = some sign ↔ Token.ofSymbol? c = some (.operator sign) := by
  unfold ofChar?
  cases htoken : Token.ofSymbol? c with
  | none => simp
  | some token => cases token <;> simp [Token.operator?]

theorem Operator.ofChar?_eq_none (h : ¬SameKind c '+') : ofChar? c = none := by
  cases hop : ofChar? c with
  | none => rfl
  | some sign => exact absurd (Token.sameKind_of_ofSymbol? (ofChar?_eq_some_iff.mp hop)) h

theorem Operator.ofChar?_of_isAlpha (h : c.isAlpha = true) : ofChar? c = none :=
  ofChar?_eq_none fun hkind => absurd (hkind.letter.symm.trans h) (by decide)

theorem Operator.ofChar?_of_isNumeric (h : isNumeric c = true) : ofChar? c = none := by
  refine ofChar?_eq_none fun hkind => ?_
  rcases Bool.or_eq_true_iff.mp h with hdigit | hpoint
  · exact absurd (hkind.digit.symm.trans hdigit) (by decide)
  · exact absurd (hkind.point.mp (beq_iff_eq.mp hpoint)) (by decide)

theorem Operator.ofChar?_of_isBlank (h : Text.isBlank c = true) : ofChar? c = none :=
  ofChar?_eq_none fun hkind => absurd (hkind.blank.symm.trans h) (by decide)

/-- A piece has no operators if none of its characters stands for one. -/
theorem Operator.filterMap_ofChar?_eq_nil (h : ∀ c ∈ text, c.isAlpha = true ∨ isNumeric c = true) :
    text.filterMap ofChar? = [] := by
  rw [List.filterMap_eq_nil_iff]
  intro c hc
  rcases h c hc with halpha | hnumeric
  · exact ofChar?_of_isAlpha halpha
  · exact ofChar?_of_isNumeric hnumeric

theorem isNumeric_of_isNumeral (h : IsNumeral text) (hc : c ∈ text) : isNumeric c = true := by
  rcases h.1 c hc with hdigit | rfl
  · simp [isNumeric, hdigit]
  · rfl

/-- The operators of a piece that has tokens are those of its characters. -/
theorem Token.operators_ofLexeme (hcut : lexeme.WellCut) (h : ofLexeme lexeme = .ok own) :
    own.filterMap operator? = lexeme.characters.filterMap Operator.ofChar? := by
  have hstands := (ofLexeme_eq_ok_iff hcut).mp h
  cases hcut with
  | numeral _ hshape =>
      rw [Lexeme.characters,
        Operator.filterMap_ofChar?_eq_nil fun c hc => .inr (isNumeric_of_isNumeral hshape hc)]
      cases hstands
      rfl
  | word _ hshape =>
      rw [Lexeme.characters, Operator.filterMap_ofChar?_eq_nil fun c hc => .inl (hshape c hc)]
      -- neither a whole word nor its letters are operators
      cases hstands with
      | word => rfl
      | letters =>
          rw [List.filterMap_eq_nil_iff]
          intro token htoken
          obtain ⟨letter, -, rfl⟩ := List.mem_map.mp htoken
          split <;> rfl
  | @symbol c =>
      cases hstands with
      | symbol hsign =>
          have hop : Operator.ofChar? c = operator? _ :=
            congrArg (·.bind operator?) (Token.ofSymbol?_eq_some_iff.mpr hsign)
          simp only [Lexeme.characters, List.filterMap_cons, List.filterMap_nil, hop]

/-- **The operators among the tokens** of a text (`Token.operator?`) are the characters of the text that are
operators (`Operator.ofChar?`). -/
theorem operators_of_pieces (hpieces : Lexeme.Pieces text lexemes)
    (h : Token.ofLexemes lexemes = .ok tokens) :
    tokens.filterMap Token.operator? = text.filterMap Operator.ofChar? := by
  induction hpieces generalizing tokens with
  | nil =>
      obtain rfl := Except.ok.inj h
      rfl
  | blank hblank _ ih => rw [List.filterMap_cons_none (Operator.ofChar?_of_isBlank hblank), ih h]
  | numeral hlongest _ ih =>
      obtain ⟨own, others, hown, hothers, rfl⟩ := Token.exists_of_ofLexemes_cons h
      rw [List.filterMap_append, List.filterMap_append, ih hothers,
        Token.operators_ofLexeme (.numeral hlongest.ne_nil hlongest.shape) hown, Lexeme.characters]
  | word hlongest _ ih =>
      obtain ⟨own, others, hown, hothers, rfl⟩ := Token.exists_of_ofLexemes_cons h
      rw [List.filterMap_append, List.filterMap_append, ih hothers,
        Token.operators_ofLexeme (.word hlongest.ne_nil hlongest.shape) hown, Lexeme.characters]
  | @symbol c rest lexemes hblank hdigit hpoint hletter _ ih =>
      obtain ⟨own, others, hown, hothers, rfl⟩ := Token.exists_of_ofLexemes_cons h
      rw [← List.singleton_append, List.filterMap_append, List.filterMap_append, ih hothers,
        Token.operators_ofLexeme (.symbol hblank hdigit hpoint hletter) hown, Lexeme.characters]

theorem operators_of_tokenize {expr : String} (h : tokenize expr = .ok tokens) :
    tokens.filterMap Token.operator? = expr.toList.filterMap Operator.ofChar? :=
  operators_of_pieces (Lexeme.pieces_scan expr.toList) h

/-! ## The operators that are shown -/

/-- **The parts that are single characters**: a choice among the spans of `highlight` that leaves out runs is
a choice among characters. -/
theorem filter_highlight (choice : HighlightSpan → Bool) (chosen : Char → Bool)
    (hletter : ∀ c, c.isAlpha = true → chosen c = false)
    (hnumeric : ∀ c, isNumeric c = true → chosen c = false)
    (hword : ∀ letters, (∀ c ∈ letters, c.isAlpha = true) → choice ⟨letters, wordRole letters⟩ = false)
    (hnumber : ∀ digits, (∀ c ∈ digits, isNumeric c = true) → choice ⟨digits, .number⟩ = false)
    (hsymbol : ∀ c, choice ⟨[c], symbolRole c⟩ = chosen c) (text : List Char) :
    (highlight text).filter choice = (text.filter chosen).map fun c => ⟨[c], symbolRole c⟩ := by
  induction text using highlight.induct with
  | case1 =>
      rw [highlight_nil]
      rfl
  | case2 c rest halpha ih =>
      obtain ⟨hall, hback, htext⟩ := run_spec halpha rest
      have hnone : (c :: rest.takeWhile Char.isAlpha).filter chosen = [] :=
        List.filter_eq_nil_iff.mpr fun d hd => by simp [hletter d (hall d hd)]
      rw [htext, highlight_word (List.cons_ne_nil _ _) hall hback, List.filter_append, hnone,
        List.nil_append, List.filter_cons_of_neg (by simp [hword _ hall]), ih]
  | case3 c rest halpha hdigit ih =>
      obtain ⟨hall, hback, htext⟩ := run_spec hdigit rest
      have hnone : (c :: rest.takeWhile isNumeric).filter chosen = [] :=
        List.filter_eq_nil_iff.mpr fun d hd => by simp [hnumeric d (hall d hd)]
      rw [htext, highlight_number (List.cons_ne_nil _ _) hall hback, List.filter_append, hnone,
        List.nil_append, List.filter_cons_of_neg (by simp [hnumber _ hall]), ih]
  | case4 c rest halpha hdigit ih =>
      simp only [Bool.not_eq_true] at halpha hdigit
      rw [highlight_symbol halpha hdigit, List.filter_cons, List.filter_cons, hsymbol, ih]
      split <;> rfl

/-! ## The two tables -/

theorem symbolRole_eq_operator_iff :
    symbolRole c = .operator ↔ c ∈ ['+', '-', '*', '/', '^', '×', '÷', '−'] := by
  unfold symbolRole
  split <;> simp_all

/-- **The two tables**: what `Operator.ofChar?` reads `symbolRole` shows as an operator, unless it is the
`middleDot`. -/
theorem isSome_ofChar?_iff :
    (Operator.ofChar? c).isSome = true ↔ symbolRole c = .operator ∨ c = middleDot := by
  rw [symbolRole_eq_operator_iff]
  constructor
  · intro h
    obtain ⟨sign, hop⟩ := Option.isSome_iff_exists.mp h
    have hsign := Token.ofSymbol?_eq_some_iff.mp (Operator.ofChar?_eq_some_iff.mp hop)
    simp only [signs, List.mem_cons, Prod.mk.injEq, List.not_mem_nil, or_false] at hsign
    rcases hsign with ⟨-, hother⟩ | ⟨-, hother⟩ | ⟨rfl, -⟩ | ⟨rfl, -⟩ | ⟨rfl, -⟩ | ⟨rfl, -⟩ | ⟨rfl, -⟩ |
      ⟨rfl, -⟩ | ⟨rfl, -⟩ | ⟨rfl, -⟩ | ⟨rfl, -⟩ | ⟨-, hother⟩
    case inl | inr.inl | inr.inr.inr.inr.inr.inr.inr.inr.inr.inr.inr => exact absurd hother (by simp)
    case inr.inr.inr.inr.inr.inr.inr.inl => exact .inr rfl
    all_goals exact .inl (by simp)
  · rintro (h | rfl)
    · simp only [List.mem_cons, List.not_mem_nil, or_false] at h
      rcases h with rfl | rfl | rfl | rfl | rfl | rfl | rfl | rfl <;> rfl
    · rfl

theorem not_operator_of_isAlpha (h : c.isAlpha = true) : symbolRole c ≠ .operator ∧ c ≠ middleDot := by
  rw [← not_or, ← isSome_ofChar?_iff, Operator.ofChar?_of_isAlpha h]
  exact Bool.false_ne_true

theorem not_operator_of_isNumeric (h : isNumeric c = true) :
    symbolRole c ≠ .operator ∧ c ≠ middleDot := by
  rw [← not_or, ← isSome_ofChar?_iff, Operator.ofChar?_of_isNumeric h]
  exact Bool.false_ne_true

theorem wordRole_ne_operator (letters : List Char) : wordRole letters ≠ .operator := by
  rcases wordRole_cases letters with hrole | hrole <;> simp [hrole]

/-! ## Where they agree -/

/-- The operators among the tokens, as characters of the text. -/
theorem operatorSigns_of_tokenize {expr : String} (h : tokenize expr = .ok tokens) :
    Token.operatorSigns tokens =
      (expr.toList.filter fun c => (Operator.ofChar? c).isSome).map fun c => [plainSpelling c] := by
  rw [Token.operatorSigns, operators_of_tokenize h]
  clear h
  induction expr.toList with
  | nil => rfl
  | cons c rest ih =>
      cases hop : Operator.ofChar? c with
      | none => rw [List.filterMap_cons_none hop, List.filter_cons_of_neg (by simp [hop]), ih]
      | some sign =>
          have hplain := plainSpelling_of_ofSymbol? (Operator.ofChar?_eq_some_iff.mp hop)
          rw [List.filterMap_cons_some hop, List.filter_cons_of_pos (by simp [hop]), List.map_cons,
            List.map_cons, hplain, ih]

/-- The operators that are shown, as characters of the text. -/
theorem plainTexts_shown (text : List Char) :
    plainTexts ((highlight text).filter fun span => span.role = .operator) =
      (text.filter fun c => symbolRole c = .operator).map fun c => [plainSpelling c] := by
  have hchosen := filter_highlight (fun span => span.role = .operator)
    (fun c => symbolRole c = .operator)
    (fun c hc => by simp [not_operator_of_isAlpha hc])
    (fun c hc => by simp [not_operator_of_isNumeric hc])
    (fun letters _ => by simp [wordRole_ne_operator]) (fun digits _ => by simp) (fun c => rfl) text
  rw [hchosen, plainTexts, List.map_map]
  rfl

/-- The same with middle dots. -/
theorem plainTexts_shown_or_dot (text : List Char) :
    plainTexts ((highlight text).filter fun span =>
        span.role = .operator ∨ span.text = [middleDot]) =
      (text.filter fun c => (Operator.ofChar? c).isSome).map fun c => [plainSpelling c] := by
  have hchosen := filter_highlight
    (fun span => span.role = .operator ∨ span.text = [middleDot])
    (fun c => (Operator.ofChar? c).isSome)
    (fun c hc => by simp [Operator.ofChar?_of_isAlpha hc])
    (fun c hc => by simp [Operator.ofChar?_of_isNumeric hc])
    (fun letters hall => by
      have hdot : letters ≠ [middleDot] := by
        rintro rfl
        exact absurd (hall middleDot (by simp)) (by decide)
      simp [wordRole_ne_operator, hdot])
    (fun digits hall => by
      have hdot : digits ≠ [middleDot] := by
        rintro rfl
        exact absurd (hall middleDot (by simp)) (by decide)
      simp [hdot])
    (fun c => by
      rw [Bool.eq_iff_iff, isSome_ofChar?_iff]
      simp)
    text
  rw [hchosen, plainTexts, List.map_map]
  rfl

/-- **The operators that are shown** and those that are read, where `tokenize` gives tokens. The spans of
`highlight` with the role `operator` are `Token.operatorSigns` if and only if there is no `middleDot` in the
text. With the middle dots, which are not shown as operators, they always are. -/
theorem operators_shown {expr : String} {tokens : List Token} (h : tokenize expr = .ok tokens) :
    (plainTexts ((highlight expr.toList).filter fun span => span.role = .operator) =
        Token.operatorSigns tokens ↔ middleDot ∉ expr.toList) ∧
      plainTexts ((highlight expr.toList).filter fun span =>
        span.role = .operator ∨ span.text = [middleDot]) = Token.operatorSigns tokens := by
  rw [operatorSigns_of_tokenize h, plainTexts_shown, plainTexts_shown_or_dot]
  refine ⟨⟨fun heq hdot => ?_, fun hdot => ?_⟩, rfl⟩
  · -- the operators that are shown are among those that are read, and as many
    have hlength := congrArg List.length heq
    rw [List.length_map, List.length_map] at hlength
    have hshown : (expr.toList.filter fun c => (Operator.ofChar? c).isSome).filter
        (fun c => symbolRole c = .operator) = expr.toList.filter fun c => symbolRole c = .operator := by
      rw [List.filter_filter]
      refine List.filter_congr fun c _ => ?_
      rw [Bool.eq_iff_iff, Bool.and_eq_true, isSome_ofChar?_iff, decide_eq_true_iff]
      exact ⟨And.left, fun hc => ⟨hc, .inl hc⟩⟩
    rw [← hshown, List.length_filter_eq_length_iff] at hlength
    have hrole := hlength middleDot (List.mem_filter.mpr ⟨hdot, rfl⟩)
    exact absurd hrole (by decide)
  · refine congrArg _ (List.filter_congr fun c hc => ?_)
    rw [Bool.eq_iff_iff, isSome_ofChar?_iff, decide_eq_true_iff]
    exact ⟨.inl, fun hor => hor.resolve_right fun heq => hdot (heq ▸ hc)⟩

/-- All glyphs of the keypad, and a product with a middle dot that is not shown. -/
theorem operators_shown_glyphs :
    plainTexts ((highlight "2×π÷X−1^2".toList).filter fun span => span.role = .operator) =
        [['*'], ['/'], ['-'], ['^']] ∧
      plainTexts ((highlight "2·3+1".toList).filter fun span => span.role = .operator) ≠
        [['*'], ['+']] := by
  have hglyphs : tokenize "2×π÷X−1^2" = .ok [.number 2, .operator '*', .word "pi", .operator '/',
      .variable, .operator '-', .number 1, .operator '^', .number 2] := by decide +kernel
  have hdot : tokenize "2·3+1" =
      .ok [.number 2, .operator '*', .number 3, .operator '+', .number 1] := by decide +kernel
  have hshown := (operators_shown hglyphs).1
  have hmissed := (operators_shown hdot).1
  exact ⟨hshown.mpr (by decide), hmissed.not.mpr (by decide)⟩

end

end Calculator
