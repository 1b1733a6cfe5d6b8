import Calculator.Proofs.Expression.Alphabet
import Calculator.Proofs.Expression.Spelling

/-!
# `Proofs.Expression.Normal` — the canonical form of an expression is read as the expression

The canonical form of an expression is the texts of its tokens with blanks between them. Reading it cuts
it at those blanks, so that every token comes back from its own text, or fails to. A token that was read
from a text has one of few forms: a number is not negative, a word is in small letters and does not fall
into single ones. In these forms every token comes back from its text but one, infinity, which is read
from a numeral that is too great and shown as a word.

## Contents

* `Token.Canonical`, `canonical_of_tokenize` — the tokens that texts have
* `Token.reread`, `Token.ofLexemes_scan_text` — what a token is read as from its own text
* `tokenize_intercalate` — the texts of tokens with blanks between them
* `normalize_reads_alike` — the canonical form of an expression
-/

namespace Calculator

/-! ## Tokens of texts -/

/-- The tokens that texts have: no number is negative or not a number, and no word has capitals or is to
be read letter by letter. -/
inductive Token.Canonical : Token → Prop
  | infinite {value : Float} (view : Binary64.ofFloat value = .infinite false) :
      Canonical (.number value)
  | finite {value : Float} {coefficient : Nat} {exponent : Int}
      (view : Binary64.ofFloat value = .finite false coefficient exponent) :
      Canonical (.number value)
  | operator {sign : Char} (read : Token.ofSymbol? sign = some (.operator sign)) :
      Canonical (.operator sign)
  | word {letters : List Char} (ne_nil : letters ≠ [])
      (alphabetic : ∀ c ∈ letters, c.isAlpha = true)
      (whole : Token.ofWord letters = [.word (String.ofList letters)]) :
      Canonical (.word (String.ofList letters))
  | variable : Canonical .variable
  | opening : Canonical .opening
  | closing : Canonical .closing

section

variable {input : String} {c : Char} {text letters whole fraction : List Char} {token : Token}
  {tokens own : List Token} {lexeme : Lexeme} {lexemes : List Lexeme}

theorem Token.canonical_pi : Canonical (.word "pi") := @Canonical.word ['p', 'i'] (by simp) (by simp) rfl

theorem Token.canonical_e : Canonical (.word "e") := @Canonical.word ['e'] (by simp) (by simp) rfl

theorem Token.canonical_ofLetter (c : Char) : Canonical (ofLetter c) := by
  unfold ofLetter
  split
  · exact .variable
  · exact canonical_e

theorem Token.canonical_ofSymbol? (h : ofSymbol? c = some token) : Canonical token := by
  unfold ofSymbol? at h
  split at h
  case h_13 => exact absurd h (by simp)
  all_goals obtain rfl := Option.some.inj h
  case h_1 => exact .opening
  case h_2 => exact .closing
  case h_12 => exact canonical_pi
  all_goals exact .operator rfl

/-- Small letters are their own small letters. -/
theorem map_toLower_map_toLower (letters : List Char) :
    (letters.map Char.toLower).map Char.toLower = letters.map Char.toLower := by
  rw [List.map_map]
  exact List.map_congr_left fun c _ => Char.toLower_toLower_eq_toLower c

theorem Token.canonical_ofWord (hne : letters ≠ []) (h : ∀ c ∈ letters, c.isAlpha = true) :
    ∀ token ∈ ofWord letters, Canonical token := by
  intro token htoken
  by_cases hsplit : (!isName (String.ofList (letters.map Char.toLower)) &&
      (letters.map Char.toLower).all fun c => c == variableName || c == 'e') = true
  · -- the letters stand for tokens one by one
    unfold ofWord at htoken
    rw [if_pos hsplit] at htoken
    obtain ⟨letter, -, rfl⟩ := List.mem_map.mp htoken
    exact canonical_ofLetter letter
  · -- the word is kept, and it is its own small spelling
    have hlower : ofWord (letters.map Char.toLower) =
        [.word (String.ofList (letters.map Char.toLower))] := by
      unfold ofWord
      rw [map_toLower_map_toLower]
      exact if_neg hsplit
    unfold ofWord at htoken
    rw [if_neg hsplit, List.mem_singleton] at htoken
    subst htoken
    refine .word (by simpa using hne) ?_ hlower
    intro c hc
    obtain ⟨d, hd, rfl⟩ := List.mem_map.mp hc
    rw [Char.isAlpha_toLower_eq_isAlpha, h d hd]

theorem Token.canonical_ofLexeme (hcut : lexeme.WellCut) (h : ofLexeme lexeme = .ok own) :
    ∀ token ∈ own, Canonical token := by
  have hstands := (ofLexeme_eq_ok_iff hcut).mp h
  cases hcut with
  | word hne hletters =>
      obtain rfl := Except.ok.inj h
      exact canonical_ofWord hne hletters
  | numeral =>
      cases hstands with
      | @numeral _ whole fraction =>
          intro token htoken
          obtain rfl := List.mem_singleton.mp htoken
          rcases (Decimal.ofDigits whole fraction 0).toFloat_cases with
            hinfinite | ⟨coefficient, exponent, hfinite⟩
          · exact .infinite hinfinite
          · exact .finite hfinite
  | symbol =>
      cases hstands with
      | symbol hsign =>
          intro token htoken
          obtain rfl := List.mem_singleton.mp htoken
          exact canonical_ofSymbol? (ofSymbol?_eq_some_iff.mpr hsign)

/-- The pieces have tokens if each of them has, and every token is one of a piece. -/
theorem Token.mem_ofLexemes (h : ofLexemes lexemes = .ok tokens) :
    ∀ token ∈ tokens, ∃ lexeme ∈ lexemes, ∃ own, ofLexeme lexeme = .ok own ∧ token ∈ own := by
  obtain ⟨groups, hgroups, rfl⟩ := ofLexemes_eq_ok_iff.mp h
  clear h
  induction hgroups with
  | nil => simp
  | @cons lexeme own rest groups hown _ ih =>
      intro token htoken
      rcases List.mem_append.mp htoken with htoken | htoken
      · exact ⟨lexeme, List.mem_cons_self, own, hown, htoken⟩
      · obtain ⟨lexeme', hmem, hfound⟩ := ih token htoken
        exact ⟨lexeme', List.mem_cons_of_mem _ hmem, hfound⟩

/-- **The tokens of a text** are `Canonical`. -/
theorem canonical_of_tokenize (h : tokenize input = .ok tokens) :
    ∀ token ∈ tokens, token.Canonical := by
  intro token htoken
  obtain ⟨lexeme, hmem, own, hown, hin⟩ := Token.mem_ofLexemes h token htoken
  exact Token.canonical_ofLexeme ((Lexeme.pieces_scan input.toList).wellCut lexeme hmem) hown token hin

/-! ## One token and its text -/

/-- What a token is read as from its own text: the text of infinity is a word. -/
def Token.reread : Token → Token
  | .number value => if value.isInf then .word "inf" else .number value
  | token => token

/-- Digits with at most one point are one piece. -/
theorem Lexeme.scan_spelled (h : SpelledBy text whole fraction) : scan text = [.numeral text] := by
  have hnumeral : text ≠ [] ∧ IsNumeral text := by
    rcases h.text_eq with ⟨rfl, -⟩ | rfl
    · exact ⟨h.whole_ne_nil, isNumeral_of_digits h.whole_digits⟩
    · exact ⟨by simp, isNumeral_of_point h.whole_digits h.fraction_digits⟩
  have hscan := (Pieces.numeral (longest_nil hnumeral.1 hnumeral.2) .nil).scan_eq
  rwa [List.append_nil] at hscan

/-- Letters and nothing else are one piece. -/
theorem Lexeme.scan_alphabetic (hne : letters ≠ []) (h : ∀ c ∈ letters, c.isAlpha = true) :
    scan letters = [.word letters] := by
  have hlongest : Longest IsWord letters [] := longest_nil hne h
  have hscan := (Pieces.word hlongest .nil).scan_eq
  rwa [List.append_nil] at hscan

/-- What stands for a token by itself is one piece. -/
theorem Lexeme.scan_ofSymbol? (h : Token.ofSymbol? c = some token) : scan [c] = [.symbol c] := by
  have hkind := Token.sameKind_of_ofSymbol? h
  have hpoint : c ≠ '.' := fun heq => absurd (hkind.point.mp heq) (by decide)
  rw [scan_symbol (hkind.blank.trans (by decide)) (hkind.digit.trans (by decide)) hpoint
    (hkind.letter.trans (by decide)), scan_nil]

theorem Token.ofLexemes_singleton (h : ofLexeme lexeme = .ok own) :
    ofLexemes [lexeme] = .ok own := by
  rw [ofLexemes_cons, h]
  simp [Except.bind, Except.map, ofLexemes]

theorem Token.ofLexemes_scan_symbol (h : ofSymbol? c = some token) :
    ofLexemes (Lexeme.scan [c]) = .ok [token] := by
  rw [Lexeme.scan_ofSymbol? h]
  exact ofLexemes_singleton (by simp only [ofLexeme, h])

theorem Token.ofLexemes_scan_word (hne : letters ≠ []) (h : ∀ c ∈ letters, c.isAlpha = true) :
    ofLexemes (Lexeme.scan letters) = .ok (ofWord letters) := by
  rw [Lexeme.scan_alphabetic hne h]
  exact ofLexemes_singleton rfl

theorem Token.ofLexemes_scan_spelled (h : SpelledBy text whole fraction) :
    ofLexemes (Lexeme.scan text) =
      .ok [.number ((Decimal.ofDigits whole fraction 0).toFloat false)] := by
  rw [Lexeme.scan_spelled h]
  refine ofLexemes_singleton ?_
  simp only [ofLexeme, h.readDecimal?]

/-- **A token comes back** from its own `text` as `reread` says: as itself, unless it is infinity. -/
theorem Token.ofLexemes_scan_text (h : token.Canonical) :
    ofLexemes (Lexeme.scan token.text.toList) = .ok [token.reread] := by
  cases h with
  | @infinite value hview =>
      have hinf : value.isInf = true := Binary64.isInf_iff.mpr ⟨false, hview⟩
      rw [text, String.toList_ofList, plainNumeral_infinity hview, reread, if_pos hinf,
        ofLexemes_scan_word (by simp) (by simp)]
      rfl
  | @finite value coefficient exponent hview =>
      have hinf : ¬ value.isInf = true := by
        rw [Binary64.isInf_iff, hview]
        simp
      obtain ⟨whole, fraction, hspelled, hvalue⟩ := plainNumeral_spelled hview
      rw [text, String.toList_ofList, ofLexemes_scan_spelled hspelled, hvalue, reread, if_neg hinf]
  | operator hread =>
      rw [text, String.toList_singleton]
      exact ofLexemes_scan_symbol hread
  | @word letters hne halpha hwhole =>
      rw [text, String.toList_ofList, ofLexemes_scan_word hne halpha, hwhole]
      rfl
  | «variable» =>
      rw [text, String.toList_singleton, ofLexemes_scan_word (by simp) (by simp [variableName])]
      rfl
  | opening => exact ofLexemes_scan_symbol (c := '(') rfl
  | closing => exact ofLexemes_scan_symbol (c := ')') rfl

theorem Token.reread_eq_self_iff :
    token.reread = token ↔ ∀ value, token = .number value → value.isInf = false := by
  cases token with
  | number value =>
      cases hinf : value.isInf with
      | true => simp [reread, hinf]
      | false => simp [reread, hinf]
  | _ => simp [reread]

/-! ## Texts of tokens -/

/-- **Texts with a blank between them** are read one by one, each as `Token.reread` says. -/
theorem Token.ofLexemes_scan_intercalate (h : ∀ token ∈ tokens, token.Canonical) :
    ofLexemes (Lexeme.scan ([' '].intercalate (tokens.map fun token => token.text.toList))) =
      .ok (tokens.map Token.reread) := by
  induction tokens with
  | nil =>
      rw [List.map_nil, List.intercalate_nil, Lexeme.scan_nil]
      rfl
  | cons token rest ih =>
      have htoken := ofLexemes_scan_text (h token List.mem_cons_self)
      have hrest := ih fun other hother => h other (List.mem_cons_of_mem token hother)
      cases rest with
      | nil => rw [List.map_singleton, List.intercalate_singleton, htoken, List.map_singleton]
      | cons next rest =>
          rw [List.map_cons] at hrest
          rw [List.map_cons, List.map_cons, List.intercalate_cons_cons, List.append_assoc,
            List.singleton_append, Lexeme.scan_append_blank (by decide), ofLexemes_append, htoken,
            hrest]
          rfl

theorem tokenize_intercalate (h : ∀ token ∈ tokens, token.Canonical) :
    tokenize (" ".intercalate (tokens.map Token.text)) = .ok (tokens.map Token.reread) := by
  unfold tokenize
  rw [String.toList_intercalate, List.map_map]
  exact Token.ofLexemes_scan_intercalate h

/-! ## The canonical form -/

/-- Tokens are all read as themselves if and only if no number among them is infinite. -/
theorem map_reread_eq_self_iff :
    tokens.map Token.reread = tokens ↔ ∀ value, .number value ∈ tokens → value.isInf = false := by
  have hself : tokens.map Token.reread = tokens ↔ ∀ token ∈ tokens, token.reread = token := by
    have hmap := List.map_inj_left (l := tokens) (f := Token.reread) (g := id)
    rwa [List.map_id] at hmap
  rw [hself]
  constructor
  · intro h value hmem
    exact Token.reread_eq_self_iff.mp (h _ hmem) value rfl
  · intro h token hmem
    refine Token.reread_eq_self_iff.mpr ?_
    rintro value rfl
    exact h value hmem

/-- **The canonical form of an expression.** What `normalize` gives has the tokens of the input if and only if
none of these is an infinite `.number`. Then `normalize` gives it again, and `compile`, `valueOf` and
`mentionsVariable` are the same for it as for the input. -/
theorem normalize_reads_alike (h : tokenize input = .ok tokens) :
    ∃ text, normalize input = .ok text ∧
      (tokenize text = .ok tokens ↔
        ∀ value, .number value ∈ tokens → value.isInf = false) ∧
      ((∀ value, .number value ∈ tokens → value.isInf = false) →
        normalize text = .ok text ∧ compile text = compile input ∧
          valueOf text = valueOf input ∧ mentionsVariable text = mentionsVariable input) := by
  have hread := tokenize_intercalate (canonical_of_tokenize h)
  have hiff : tokenize (" ".intercalate (tokens.map Token.text)) = .ok tokens ↔
      ∀ value, .number value ∈ tokens → value.isInf = false := by
    rw [hread, Except.ok.injEq]
    exact map_reread_eq_self_iff
  refine ⟨" ".intercalate (tokens.map Token.text), by rw [normalize, h]; rfl, hiff, ?_⟩
  intro hfinite
  have hsame := hiff.mpr hfinite
  have hcompile : compile (" ".intercalate (tokens.map Token.text)) = compile input := by
    rw [compile_eq_bind, compile_eq_bind, hsame, h]
  refine ⟨by rw [normalize, hsame]; rfl, hcompile, ?_, ?_⟩
  · rw [valueOf, valueOf, hcompile]
  · rw [mentionsVariable, mentionsVariable, hsame, h]

/-- Numbers that stand side by side stay apart and letters that stand together come apart. A numeral that
is too great is lost. -/
theorem normalize_reads_alike_adjacent :
    let great := String.ofList (List.replicate 309 '9')
    tokenize "1.2.3Xe×π" = .ok [.number 1.2, .number 0.3, .variable, .word "e", .operator '*',
        .word "pi"] ∧
      normalize "1.2.3Xe×π" = .ok "1.2 0.3 x e * pi" ∧
      normalize "1.2 0.3 x e * pi" = .ok "1.2 0.3 x e * pi" ∧
      compile "1.2 0.3 x e * pi" = compile "1.2.3Xe×π" ∧
      tokenize great = .ok [.number (Binary64.infinity false)] ∧ normalize great = .ok "inf" ∧
      tokenize "inf" ≠ .ok [.number (Binary64.infinity false)] := by
  intro great
  have hadjacent : tokenize "1.2.3Xe×π" = .ok [.number 1.2, .number 0.3, .variable, .word "e",
      .operator '*', .word "pi"] := by decide +kernel
  have hfinite : ∀ value, .number value ∈ [Token.number 1.2, .number 0.3, .variable, .word "e",
      .operator '*', .word "pi"] → value.isInf = false := by
    intro value hmem
    simp only [List.mem_cons, Token.number.injEq, reduceCtorEq, List.not_mem_nil, or_false] at hmem
    rcases hmem with rfl | rfl <;> decide +kernel
  have hshown : normalize "1.2.3Xe×π" = .ok "1.2 0.3 x e * pi" := by
    rw [normalize, hadjacent]
    decide +kernel
  have hspelled : SpelledBy (List.replicate 309 '9') (List.replicate 309 '9') [] :=
    { whole_ne_nil := by rw [ne_eq, List.replicate_eq_nil_iff]; decide
      whole_digits := fun c hc => by rw [List.eq_of_mem_replicate hc]; rfl
      fraction_digits := by simp
      text_eq := .inl ⟨rfl, rfl⟩ }
  have hvalue : (Decimal.ofDigits (List.replicate 309 '9') [] 0).toFloat false =
      Binary64.infinity false := by decide +kernel
  have hgreat : tokenize great = .ok [.number (Binary64.infinity false)] := by
    rw [tokenize, String.toList_ofList, Token.ofLexemes_scan_spelled hspelled, hvalue]
  have hlost : normalize great = .ok "inf" := by
    rw [normalize, hgreat]
    decide +kernel
  obtain ⟨text, hnormal, -, hsame⟩ := normalize_reads_alike hadjacent
  obtain rfl := Except.ok.inj (hshown.symm.trans hnormal)
  obtain ⟨hagain, hcompile, -, -⟩ := hsame hfinite
  refine ⟨hadjacent, hshown, hagain, hcompile, hgreat, hlost, ?_⟩
  intro hread
  obtain ⟨text, hnormal, hiff, -⟩ := normalize_reads_alike hgreat
  obtain rfl := Except.ok.inj (hlost.symm.trans hnormal)
  have hinf := hiff.mp hread _ (List.mem_singleton_self _)
  exact absurd hinf (by decide +kernel)

end

end Calculator
