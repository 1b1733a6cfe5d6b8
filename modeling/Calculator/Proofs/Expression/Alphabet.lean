import Calculator.Proofs.Expression.Cutting
import Calculator.Proofs.Number.ReadBack
import Mathlib.Data.List.Forall2

/-!
# `Proofs.Expression.Alphabet` — what a text is written with if it has tokens

How a text falls into pieces can be said without a word on how it is cut: a piece is the longest one of
its shape, and behind it the rest falls into pieces in the same way. Longest pieces of one shape are the
same, so every text has exactly one such cutting, and it is the one that is found.

Of the pieces, only two kinds stand for no tokens. One is a symbol that is none of the signs of an
expression; a text has none of these if and only if it keeps to the alphabet. The other is a point without
digits on either side. The first of them from the left is what is named.

## Contents

* `IsNumeral`, `IsWord`, `Longest` — shapes of pieces, and the longest piece of a shape
* `Lexeme.Pieces`, `Lexeme.pieces_scan`, `Lexeme.Pieces.scan_eq` — the only cutting of a text
* `signs`, `InAlphabet` — what an expression is written with
* `Lexeme.StandsFor`, `Lexeme.Offends` — the tokens of a piece, and the pieces that have none
* `Token.ofLexemes_eq_ok_iff` — the tokens of a text, piece by piece
* `tokenize_decides_alphabet` — the texts that have tokens
-/

namespace Calculator

/-! ## Longest pieces -/

/-- Digits with at most one point among them. -/
def IsNumeral (text : List Char) : Prop :=
  (∀ c ∈ text, c.isDigit = true ∨ c = '.') ∧ text.count '.' ≤ 1

/-- Letters and nothing else. -/
def IsWord (text : List Char) : Prop := ∀ c ∈ text, c.isAlpha = true

/-- A text begins with a piece of a shape, and with none of that shape that is longer. -/
structure Longest (Shape : List Char → Prop) (piece rest : List Char) : Prop where
  ne_nil : piece ≠ []
  shape : Shape piece
  longest : ∀ more, more ≠ [] → more <+: rest → ¬ Shape (piece ++ more)

section

variable {Shape : List Char → Prop} {c : Char} {piece rest piece' rest' text digits whole fraction :
  List Char}

/-- **The longest piece of a shape is the only one** (`Longest`). -/
theorem Longest.unique (h : Longest Shape piece rest) (h' : Longest Shape piece' rest')
    (heq : piece ++ rest = piece' ++ rest') : piece = piece' ∧ rest = rest' := by
  rcases List.append_eq_append_iff.mp heq with ⟨more, hpiece, hrest⟩ | ⟨more, hpiece, hrest⟩
  · have hnil : more = [] := by
      by_contra hmore
      refine h.longest more hmore ⟨rest', hrest.symm⟩ ?_
      rw [← hpiece]
      exact h'.shape
    simp [hpiece, hrest, hnil]
  · have hnil : more = [] := by
      by_contra hmore
      refine h'.longest more hmore ⟨rest, hrest.symm⟩ ?_
      rw [← hpiece]
      exact h.shape
    simp [hpiece, hrest, hnil]

/-- If a shape is kept by what a text begins with, it is enough that the next character does not go on. -/
theorem longest_of_head? (hclosed : ∀ start more, Shape (start ++ more) → Shape start)
    (hne : piece ≠ []) (hshape : Shape piece)
    (hnext : ∀ c ∈ rest.head?, ¬ Shape (piece ++ [c])) : Longest Shape piece rest := by
  refine ⟨hne, hshape, ?_⟩
  intro more hmore hprefix hlonger
  obtain ⟨c, others, rfl⟩ := List.exists_cons_of_ne_nil hmore
  obtain ⟨behind, rfl⟩ := hprefix
  refine hnext c rfl (hclosed (piece ++ [c]) others ?_)
  rwa [List.append_assoc, List.singleton_append]

theorem longest_nil (hne : piece ≠ []) (hshape : Shape piece) : Longest Shape piece [] :=
  ⟨hne, hshape, fun _ hmore hprefix _ => hmore (List.prefix_nil.mp hprefix)⟩

theorem IsNumeral.of_append (start more : List Char) (h : IsNumeral (start ++ more)) :
    IsNumeral start := by
  refine ⟨fun c hc => h.1 c (List.mem_append_left more hc), ?_⟩
  exact ((List.sublist_append_left start more).count_le '.').trans h.2

theorem IsWord.of_append (start more : List Char) (h : IsWord (start ++ more)) : IsWord start :=
  fun c hc => h c (List.mem_append_left more hc)

/-! ## Numerals -/

theorem point_not_mem_of_digits (h : ∀ c ∈ digits, c.isDigit = true) : '.' ∉ digits :=
  fun hmem => absurd (h '.' hmem) (by decide)

theorem isNumeral_of_digits (h : ∀ c ∈ digits, c.isDigit = true) : IsNumeral digits := by
  refine ⟨fun c hc => .inl (h c hc), ?_⟩
  rw [List.count_eq_zero_of_not_mem (point_not_mem_of_digits h)]
  exact Nat.zero_le 1

theorem isNumeral_of_point (hwhole : ∀ c ∈ whole, c.isDigit = true)
    (hfraction : ∀ c ∈ fraction, c.isDigit = true) : IsNumeral (whole ++ '.' :: fraction) := by
  constructor
  · intro c hc
    rcases List.mem_append.mp hc with hc | hc
    · exact .inl (hwhole c hc)
    rcases List.mem_cons.mp hc with rfl | hc
    · exact .inr rfl
    · exact .inl (hfraction c hc)
  · rw [List.count_append, List.count_cons_self,
      List.count_eq_zero_of_not_mem (point_not_mem_of_digits hwhole),
      List.count_eq_zero_of_not_mem (point_not_mem_of_digits hfraction)]

/-- A numeral is digits, or digits around one point. -/
theorem IsNumeral.cases (h : IsNumeral text) :
    (∀ c ∈ text, c.isDigit = true) ∨
      ∃ whole fraction, text = whole ++ '.' :: fraction ∧ (∀ c ∈ whole, c.isDigit = true) ∧
        ∀ c ∈ fraction, c.isDigit = true := by
  obtain ⟨hall, hcount⟩ := h
  by_cases hpoint : '.' ∈ text
  · right
    obtain ⟨whole, fraction, rfl⟩ := List.append_of_mem hpoint
    rw [List.count_append, List.count_cons_self] at hcount
    have hwhole : '.' ∉ whole := List.count_eq_zero.mp (by omega)
    have hfraction : '.' ∉ fraction := List.count_eq_zero.mp (by omega)
    refine ⟨whole, fraction, rfl, ?_, ?_⟩
    · intro c hc
      exact (hall c (List.mem_append_left _ hc)).resolve_right fun heq => hwhole (heq ▸ hc)
    · intro c hc
      exact (hall c (List.mem_append_right _ (List.mem_cons_of_mem _ hc))).resolve_right
        fun heq => hfraction (heq ▸ hc)
  · left
    intro c hc
    exact (hall c hc).resolve_right fun heq => hpoint (heq ▸ hc)

/-- What ends a numeral: a character that is neither digit nor point, or a second point. -/
theorem not_isNumeral_append (hdigit : c.isDigit = false) (hpoint : c = '.' → '.' ∈ text) :
    ¬ IsNumeral (text ++ [c]) := by
  rintro ⟨hall, hcount⟩
  rcases hall c (List.mem_append_right text (List.mem_singleton_self c)) with hc | rfl
  · exact absurd hc (by simp [hdigit])
  · have hmem := List.count_pos_iff.mpr (hpoint rfl)
    rw [List.count_append, List.count_singleton_self] at hcount
    omega

theorem spanDigits_append_rest (text : List Char) :
    (spanDigits text).1 ++ (spanDigits text).2 = text := List.takeWhile_append_dropWhile

theorem isDigit_of_mem_spanDigits (text : List Char) : ∀ c ∈ (spanDigits text).1, c.isDigit = true :=
  fun _ hc => List.mem_takeWhile_imp hc

theorem isDigit_eq_false_of_mem_head? (text : List Char) :
    ∀ c ∈ (spanDigits text).2.head?, c.isDigit = false := by
  intro c hc
  have hhead := List.head?_dropWhile_not Char.isDigit text
  rw [show (text.dropWhile Char.isDigit).head? = some c from hc] at hhead
  exact hhead

theorem spanNumeral_append_rest (text : List Char) :
    (spanNumeral text).1 ++ (spanNumeral text).2 = text := by
  by_cases hpoint : (spanDigits text).2.head? = some '.'
  · obtain ⟨others, hothers⟩ := List.head?_eq_some_iff.mp hpoint
    rw [spanNumeral_of_point hothers, List.append_assoc, List.cons_append, spanDigits_append_rest,
      ← hothers, spanDigits_append_rest]
  · rw [spanNumeral_of_ne_point hpoint, spanDigits_append_rest]

theorem longest_point (rest : List Char) :
    Longest IsNumeral ('.' :: (spanDigits rest).1) (spanDigits rest).2 := by
  have hshape : IsNumeral ([] ++ '.' :: (spanDigits rest).1) :=
    isNumeral_of_point (by simp) (isDigit_of_mem_spanDigits rest)
  refine longest_of_head? IsNumeral.of_append (List.cons_ne_nil _ _) hshape ?_
  intro c hc
  exact not_isNumeral_append (isDigit_eq_false_of_mem_head? rest c hc) fun _ => List.mem_cons_self

theorem longest_digit (h : c.isDigit = true) (rest : List Char) :
    Longest IsNumeral (c :: (spanNumeral rest).1) (spanNumeral rest).2 := by
  have hdigits : ∀ d ∈ c :: (spanDigits rest).1, d.isDigit = true := by
    intro d hd
    rcases List.mem_cons.mp hd with rfl | hd
    · exact h
    · exact isDigit_of_mem_spanDigits rest d hd
  by_cases hpoint : (spanDigits rest).2.head? = some '.'
  · -- behind the point only digits go on
    obtain ⟨others, hothers⟩ := List.head?_eq_some_iff.mp hpoint
    rw [spanNumeral_of_point hothers]
    have hshape := isNumeral_of_point hdigits (isDigit_of_mem_spanDigits others)
    refine longest_of_head? IsNumeral.of_append (List.cons_ne_nil _ _) hshape ?_
    intro d hd
    exact not_isNumeral_append (isDigit_eq_false_of_mem_head? others d hd) fun _ => by simp
  · rw [spanNumeral_of_ne_point hpoint]
    refine longest_of_head? IsNumeral.of_append (List.cons_ne_nil _ _) (isNumeral_of_digits hdigits) ?_
    intro d hd
    refine not_isNumeral_append (isDigit_eq_false_of_mem_head? rest d hd) ?_
    rintro rfl
    exact absurd hd hpoint

theorem longest_letter (h : c.isAlpha = true) (rest : List Char) :
    Longest IsWord (c :: rest.takeWhile Char.isAlpha) (rest.dropWhile Char.isAlpha) := by
  have hletters : IsWord (c :: rest.takeWhile Char.isAlpha) := by
    intro d hd
    rcases List.mem_cons.mp hd with rfl | hd
    · exact h
    · exact List.mem_takeWhile_imp hd
  refine longest_of_head? IsWord.of_append (List.cons_ne_nil _ _) hletters ?_
  intro d hd hlonger
  have hhead := List.head?_dropWhile_not Char.isAlpha rest
  rw [show (rest.dropWhile Char.isAlpha).head? = some d from hd] at hhead
  have hd' := hlonger d (List.mem_append_right _ (List.mem_singleton_self d))
  exact absurd hd' (by simpa using hhead)

end

/-! ## The pieces of a text -/

namespace Lexeme

/-- **How a text falls into pieces**: blanks belong to none, a `numeral` and a `word` are the `Longest` of
their shape, and every other character is a `symbol`. -/
inductive Pieces : List Char → List Lexeme → Prop
  | nil : Pieces [] []
  | blank {c : Char} {rest : List Char} {lexemes : List Lexeme} (blank : Text.isBlank c = true)
      (others : Pieces rest lexemes) : Pieces (c :: rest) lexemes
  | numeral {piece rest : List Char} {lexemes : List Lexeme} (longest : Longest IsNumeral piece rest)
      (others : Pieces rest lexemes) : Pieces (piece ++ rest) (.numeral piece :: lexemes)
  | word {piece rest : List Char} {lexemes : List Lexeme} (longest : Longest IsWord piece rest)
      (others : Pieces rest lexemes) : Pieces (piece ++ rest) (.word piece :: lexemes)
  | symbol {c : Char} {rest : List Char} {lexemes : List Lexeme} (blank : Text.isBlank c = false)
      (digit : c.isDigit = false) (point : c ≠ '.') (letter : c.isAlpha = false)
      (others : Pieces rest lexemes) : Pieces (c :: rest) (.symbol c :: lexemes)

section

variable {text : List Char} {lexemes : List Lexeme}

/-- **A text falls into the pieces that are found** by `scan`. -/
theorem pieces_scan (text : List Char) : Pieces text (scan text) := by
  induction text using scan.induct with
  | case1 =>
      rw [scan_nil]
      exact .nil
  | case2 c rest hblank ih =>
      rw [scan_blank hblank]
      exact .blank hblank ih
  | case3 c rest hblank hdigit ih =>
      rw [scan_digit hdigit]
      have hpieces := Pieces.numeral (longest_digit hdigit rest) ih
      rwa [List.cons_append, spanNumeral_append_rest] at hpieces
  | case4 rest hblank hdigit ih =>
      rw [scan_point]
      have hpieces := Pieces.numeral (longest_point rest) ih
      rwa [List.cons_append, spanDigits_append_rest] at hpieces
  | case5 c rest hblank hdigit hpoint halpha ih =>
      rw [scan_letter halpha]
      have hpieces := Pieces.word (longest_letter halpha rest) ih
      rwa [List.cons_append, List.takeWhile_append_dropWhile] at hpieces
  | case6 c rest hblank hdigit hpoint halpha ih =>
      simp only [Bool.not_eq_true] at hblank hdigit halpha
      rw [scan_symbol hblank hdigit hpoint halpha]
      exact .symbol hblank hdigit hpoint halpha ih

/-- **It falls into no others**: all `Pieces` of a text are those of `scan`. -/
theorem Pieces.scan_eq (h : Pieces text lexemes) : scan text = lexemes := by
  induction h with
  | nil => exact scan_nil
  | blank hblank _ ih => rw [scan_blank hblank, ih]
  | @numeral piece rest lexemes hlongest _ ih =>
      obtain ⟨c, others, rfl⟩ := List.exists_cons_of_ne_nil hlongest.ne_nil
      rcases hlongest.shape.1 c List.mem_cons_self with hdigit | rfl
      · obtain ⟨hpiece, hrest⟩ := hlongest.unique (longest_digit hdigit (others ++ rest))
          (by rw [List.cons_append, List.cons_append, spanNumeral_append_rest])
        rw [List.cons_append, scan_digit hdigit, ← hpiece, ← hrest, ih]
      · obtain ⟨hpiece, hrest⟩ := hlongest.unique (longest_point (others ++ rest))
          (by rw [List.cons_append, List.cons_append, spanDigits_append_rest])
        rw [List.cons_append, scan_point, ← hpiece, ← hrest, ih]
  | @word piece rest lexemes hlongest _ ih =>
      obtain ⟨c, others, rfl⟩ := List.exists_cons_of_ne_nil hlongest.ne_nil
      have halpha := hlongest.shape c List.mem_cons_self
      obtain ⟨hpiece, hrest⟩ := hlongest.unique (longest_letter halpha (others ++ rest))
        (by rw [List.cons_append, List.cons_append, List.takeWhile_append_dropWhile])
      rw [List.cons_append, scan_letter halpha, ← hpiece, ← hrest, ih]
  | symbol hblank hdigit hpoint halpha _ ih => rw [scan_symbol hblank hdigit hpoint halpha, ih]

/-- What is known of a piece by itself. -/
inductive WellCut : Lexeme → Prop
  | numeral {piece : List Char} (ne_nil : piece ≠ []) (shape : IsNumeral piece) :
      WellCut (.numeral piece)
  | word {piece : List Char} (ne_nil : piece ≠ []) (shape : IsWord piece) : WellCut (.word piece)
  | symbol {c : Char} (blank : Text.isBlank c = false) (digit : c.isDigit = false) (point : c ≠ '.')
      (letter : c.isAlpha = false) : WellCut (.symbol c)

theorem Pieces.wellCut (h : Pieces text lexemes) : ∀ lexeme ∈ lexemes, lexeme.WellCut := by
  induction h with
  | nil => simp
  | blank _ _ ih => exact ih
  | numeral hlongest _ ih => simpa using ⟨.numeral hlongest.ne_nil hlongest.shape, ih⟩
  | word hlongest _ ih => simpa using ⟨.word hlongest.ne_nil hlongest.shape, ih⟩
  | symbol hblank hdigit hpoint halpha _ ih =>
      simpa using ⟨.symbol hblank hdigit hpoint halpha, ih⟩

end

end Lexeme

/-! ## The alphabet -/

/-- **The signs of an expression**, each with the `Token` that it stands for. -/
def signs : List (Char × Token) :=
  [('(', .opening), (')', .closing), ('+', .operator '+'), ('-', .operator '-'),
    ('−', .operator '-'), ('*', .operator '*'), ('×', .operator '*'), ('·', .operator '*'),
    ('/', .operator '/'), ('÷', .operator '/'), ('^', .operator '^'), ('π', .word "pi")]

/-- **The characters that expressions are written with**: blanks, ASCII letters and digits, the point and the
`signs`. -/
def InAlphabet (c : Char) : Prop :=
  Text.isBlank c = true ∨ c.isAlpha = true ∨ c.isDigit = true ∨ c = '.' ∨ ∃ token, (c, token) ∈ signs

/-- **The tokens that a piece stands for**: one number, one token of a sign, a known word or one with
letters other than `x` and `e`, and else a token for each letter. -/
inductive Lexeme.StandsFor : Lexeme → List Token → Prop
  | numeral {text whole fraction : List Char} (whole_digits : ∀ c ∈ whole, c.isDigit = true)
      (fraction_digits : ∀ c ∈ fraction, c.isDigit = true) (digits : whole ≠ [] ∨ fraction ≠ [])
      (text_eq : text = whole ∧ fraction = [] ∨ text = whole ++ '.' :: fraction) :
      StandsFor (.numeral text) [.number ((Decimal.ofDigits whole fraction 0).toFloat false)]
  | symbol {c : Char} {token : Token} (sign : (c, token) ∈ signs) : StandsFor (.symbol c) [token]
  | word {letters : List Char}
      (whole : isName (String.ofList (letters.map Char.toLower)) = true ∨
        ∃ c ∈ letters.map Char.toLower, c ≠ 'x' ∧ c ≠ 'e') :
      StandsFor (.word letters) [.word (String.ofList (letters.map Char.toLower))]
  | letters {letters : List Char}
      (unnamed : isName (String.ofList (letters.map Char.toLower)) = false)
      (all : ∀ c ∈ letters.map Char.toLower, c = 'x' ∨ c = 'e') :
      StandsFor (.word letters)
        ((letters.map Char.toLower).map fun c => if c = 'x' then .variable else .word "e")

/-- **The pieces that stand for nothing**, each with its `Malformed`: a point alone, and a symbol that is not
`InAlphabet`. -/
inductive Lexeme.Offends : Lexeme → Malformed → Prop
  | lonePoint : Offends (.numeral ['.']) (.invalidNumber ['.'])
  | stranger {c : Char} (outside : ¬ InAlphabet c) : Offends (.symbol c) (.unknownCharacter c)

section

variable {c : Char} {text whole fraction letters : List Char} {token : Token}
  {lexeme : Lexeme} {lexemes : List Lexeme} {own : List Token} {e : ExprError} {tokens : List Token}

theorem Token.ofSymbol?_eq_some_iff : ofSymbol? c = some token ↔ (c, token) ∈ signs := by
  constructor
  · intro h
    unfold ofSymbol? at h
    split at h
    case h_13 => exact absurd h (by simp)
    all_goals
      obtain rfl := Option.some.inj h
      simp [signs]
  · intro h
    simp only [signs, List.mem_cons, Prod.mk.injEq, List.not_mem_nil, or_false] at h
    rcases h with ⟨rfl, rfl⟩ | ⟨rfl, rfl⟩ | ⟨rfl, rfl⟩ | ⟨rfl, rfl⟩ | ⟨rfl, rfl⟩ | ⟨rfl, rfl⟩ |
      ⟨rfl, rfl⟩ | ⟨rfl, rfl⟩ | ⟨rfl, rfl⟩ | ⟨rfl, rfl⟩ | ⟨rfl, rfl⟩ | ⟨rfl, rfl⟩ <;> rfl

/-- When a word is read letter by letter. -/
theorem splits_iff {lower : List Char} :
    (!isName (String.ofList lower) && lower.all fun c => c == variableName || c == 'e') = true ↔
      isName (String.ofList lower) = false ∧ ∀ c ∈ lower, c = 'x' ∨ c = 'e' := by
  simp [variableName]

theorem Token.ofWord_whole
    (h : isName (String.ofList (letters.map Char.toLower)) = true ∨
      ∃ c ∈ letters.map Char.toLower, c ≠ 'x' ∧ c ≠ 'e') :
    ofWord letters = [.word (String.ofList (letters.map Char.toLower))] := by
  unfold ofWord
  refine if_neg fun hsplits => ?_
  obtain ⟨hunnamed, hall⟩ := splits_iff.mp hsplits
  rcases h with hname | ⟨c, hc, hx, he⟩
  · exact absurd hname (by simp [hunnamed])
  · exact (hall c hc).elim hx he

theorem Token.ofWord_letters (hunnamed : isName (String.ofList (letters.map Char.toLower)) = false)
    (hall : ∀ c ∈ letters.map Char.toLower, c = 'x' ∨ c = 'e') :
    ofWord letters =
      (letters.map Char.toLower).map fun c => if c = 'x' then .variable else .word "e" := by
  unfold ofWord
  exact if_pos (splits_iff.mpr ⟨hunnamed, hall⟩)

/-- A piece is read as the tokens that it stands for. -/
theorem Lexeme.StandsFor.ofLexeme_eq (h : lexeme.StandsFor own) : Token.ofLexeme lexeme = .ok own := by
  cases h with
  | numeral hwhole hfraction hdigits htext =>
      rw [Token.ofLexeme, readDecimal?_of_digits hwhole hfraction hdigits htext]
  | symbol hsign => rw [Token.ofLexeme, Token.ofSymbol?_eq_some_iff.mpr hsign]
  | word hwhole => rw [Token.ofLexeme, Token.ofWord_whole hwhole]
  | letters hunnamed hall => rw [Token.ofLexeme, Token.ofWord_letters hunnamed hall]

/-- A piece that offends is refused with what is said of it. -/
theorem Lexeme.Offends.ofLexeme_eq {cause : Malformed} (h : lexeme.Offends cause) :
    Token.ofLexeme lexeme = .error (.malformed cause) := by
  cases h with
  | lonePoint => rfl
  | @stranger c houtside =>
      have hnone : Token.ofSymbol? c = none := by
        cases htoken : Token.ofSymbol? c with
        | none => rfl
        | some token =>
            have hsign := Token.ofSymbol?_eq_some_iff.mp htoken
            exact absurd (.inr (.inr (.inr (.inr ⟨token, hsign⟩)))) houtside
      rw [Token.ofLexeme, hnone]

/-- **A piece that is `WellCut`** stands for tokens (`StandsFor`) or offends (`Offends`). -/
theorem Lexeme.WellCut.cases (h : lexeme.WellCut) :
    (∃ own, lexeme.StandsFor own) ∨ ∃ cause, lexeme.Offends cause := by
  cases h with
  | numeral hne hshape =>
      rcases hshape.cases with hdigits | ⟨whole, fraction, rfl, hwhole, hfraction⟩
      · exact .inl ⟨_, .numeral hdigits (by simp) (.inl hne) (.inl ⟨rfl, rfl⟩)⟩
      · by_cases hsome : whole ≠ [] ∨ fraction ≠ []
        · exact .inl ⟨_, .numeral hwhole hfraction hsome (.inr rfl)⟩
        · simp only [not_or, not_not] at hsome
          obtain ⟨rfl, rfl⟩ := hsome
          exact .inr ⟨_, .lonePoint⟩
  | @word letters hne hshape =>
      by_cases hwhole : isName (String.ofList (letters.map Char.toLower)) = true ∨
          ∃ c ∈ letters.map Char.toLower, c ≠ 'x' ∧ c ≠ 'e'
      · exact .inl ⟨_, .word hwhole⟩
      · simp only [not_or, Bool.not_eq_true] at hwhole
        obtain ⟨hunnamed, hnone⟩ := hwhole
        refine .inl ⟨_, .letters hunnamed ?_⟩
        intro c hc
        by_contra hother
        exact hnone ⟨c, hc, not_or.mp hother⟩
  | @symbol c hblank hdigit hpoint halpha =>
      by_cases hin : InAlphabet c
      · rcases hin with hin | hin | hin | hin | ⟨token, hsign⟩
        · exact absurd hin (by simp [hblank])
        · exact absurd hin (by simp [halpha])
        · exact absurd hin (by simp [hdigit])
        · exact absurd hin hpoint
        · exact .inl ⟨_, .symbol hsign⟩
      · exact .inr ⟨_, .stranger hin⟩

theorem Token.ofLexeme_eq_ok_iff (h : lexeme.WellCut) :
    ofLexeme lexeme = .ok own ↔ lexeme.StandsFor own := by
  refine ⟨fun hown => ?_, fun hstands => hstands.ofLexeme_eq⟩
  rcases h.cases with ⟨own', hstands⟩ | ⟨cause, hoffends⟩
  · rw [hstands.ofLexeme_eq] at hown
    exact Except.ok.inj hown ▸ hstands
  · rw [hoffends.ofLexeme_eq] at hown
    exact absurd hown (by simp)

theorem Token.ofLexeme_eq_error_iff (h : lexeme.WellCut) :
    ofLexeme lexeme = .error e ↔ ∃ cause, lexeme.Offends cause ∧ e = .malformed cause := by
  constructor
  · intro herror
    rcases h.cases with ⟨own', hstands⟩ | ⟨cause, hoffends⟩
    · rw [hstands.ofLexeme_eq] at herror
      exact absurd herror (by simp)
    · rw [hoffends.ofLexeme_eq] at herror
      exact ⟨cause, hoffends, (Except.error.inj herror).symm⟩
  · rintro ⟨cause, hoffends, rfl⟩
    exact hoffends.ofLexeme_eq

/-! ## Piece by piece -/

/-- Pieces have tokens if each of them has. -/
theorem Token.ofLexemes_eq_ok_iff :
    ofLexemes lexemes = .ok tokens ↔
      ∃ groups, List.Forall₂ (fun lexeme own => ofLexeme lexeme = .ok own) lexemes groups ∧
        tokens = groups.flatten := by
  induction lexemes generalizing tokens with
  | nil => simp [ofLexemes, eq_comm]
  | cons lexeme rest ih =>
      rw [ofLexemes_cons]
      constructor
      · intro h
        cases hown : ofLexeme lexeme with
        | error e =>
            rw [hown] at h
            exact absurd h (by simp [Except.bind])
        | ok own =>
            cases hrest : ofLexemes rest with
            | error e =>
                rw [hown, hrest] at h
                exact absurd h (by simp [Except.bind, Except.map])
            | ok others =>
                rw [hown, hrest] at h
                obtain ⟨groups, hgroups, rfl⟩ := ih.mp hrest
                exact ⟨own :: groups, .cons hown hgroups, (Except.ok.inj h).symm⟩
      · rintro ⟨groups, hgroups, rfl⟩
        cases hgroups with
        | @cons _ own _ groups hown hgroups =>
            rw [hown, ih.mpr ⟨groups, hgroups, rfl⟩]
            rfl

theorem Token.exists_of_ofLexemes_eq_ok (h : ofLexemes lexemes = .ok tokens) :
    ∀ lexeme ∈ lexemes, ∃ own, ofLexeme lexeme = .ok own := by
  obtain ⟨groups, hgroups, -⟩ := ofLexemes_eq_ok_iff.mp h
  clear h
  induction hgroups with
  | nil => simp
  | cons hown _ ih => exact List.forall_mem_cons.mpr ⟨⟨_, hown⟩, ih⟩

theorem Lexeme.forall₂_standsFor (hcut : ∀ lexeme ∈ lexemes, lexeme.WellCut)
    {groups : List (List Token)}
    (h : List.Forall₂ (fun lexeme own => Token.ofLexeme lexeme = .ok own) lexemes groups) :
    List.Forall₂ StandsFor lexemes groups := by
  induction h with
  | nil => exact .nil
  | cons hown _ ih =>
      rw [List.forall_mem_cons] at hcut
      exact .cons ((Token.ofLexeme_eq_ok_iff hcut.1).mp hown) (ih hcut.2)

/-! ## The texts that have tokens -/

/-- A text keeps to the alphabet if and only if its symbols do. -/
theorem Lexeme.Pieces.inAlphabet_iff (h : Pieces text lexemes) :
    (∀ c ∈ text, InAlphabet c) ↔ ∀ c, .symbol c ∈ lexemes → InAlphabet c := by
  induction h with
  | nil => simp
  | @blank c rest lexemes hblank _ ih =>
      rw [List.forall_mem_cons, ih]
      exact and_iff_right (.inl hblank)
  | @numeral piece rest lexemes hlongest _ ih =>
      have hpiece : ∀ c ∈ piece, InAlphabet c := by
        intro c hc
        rcases hlongest.shape.1 c hc with hdigit | hpoint
        · exact .inr (.inr (.inl hdigit))
        · exact .inr (.inr (.inr (.inl hpoint)))
      rw [List.forall_mem_append, ih]
      simpa using fun _ => hpiece
  | @word piece rest lexemes hlongest _ ih =>
      have hpiece : ∀ c ∈ piece, InAlphabet c := fun c hc => .inr (.inl (hlongest.shape c hc))
      rw [List.forall_mem_append, ih]
      simpa using fun _ => hpiece
  | @symbol c rest lexemes hblank hdigit hpoint halpha _ ih =>
      rw [List.forall_mem_cons, ih]
      simp [or_imp, forall_and]

/-- **The texts that have tokens.** A text falls into `Lexeme.Pieces` in one way. `tokenize` gives tokens if
and only if every character is `InAlphabet` and no piece is a point alone; the tokens are then those that the
pieces stand for (`Lexeme.StandsFor`), one after the other. Otherwise `tokenize` fails with `.malformed` and
the cause of the first piece that `Offends`. -/
theorem tokenize_decides_alphabet (input : String) :
    ∃ lexemes, Lexeme.Pieces input.toList lexemes ∧
      (∀ others, Lexeme.Pieces input.toList others → others = lexemes) ∧
      ((∃ tokens, tokenize input = .ok tokens) ↔
        (∀ c ∈ input.toList, InAlphabet c) ∧ Lexeme.numeral ['.'] ∉ lexemes) ∧
      (∀ tokens, tokenize input = .ok tokens →
        ∃ groups, List.Forall₂ Lexeme.StandsFor lexemes groups ∧ tokens = groups.flatten) ∧
      ∀ e, tokenize input = .error e →
        ∃ before offending after cause, lexemes = before ++ offending :: after ∧
          (∀ lexeme ∈ before, ∀ other, ¬ lexeme.Offends other) ∧ offending.Offends cause ∧
          e = .malformed cause := by
  have hpieces := Lexeme.pieces_scan input.toList
  have hcut := hpieces.wellCut
  refine ⟨Lexeme.scan input.toList, hpieces, fun others hothers => hothers.scan_eq.symm, ?_, ?_, ?_⟩
  · constructor
    · rintro ⟨tokens, htokens⟩
      have hnone : ∀ lexeme ∈ Lexeme.scan input.toList, ∀ cause, ¬ lexeme.Offends cause := by
        intro lexeme hmem cause hoffends
        obtain ⟨own, hown⟩ := Token.exists_of_ofLexemes_eq_ok htokens lexeme hmem
        rw [hoffends.ofLexeme_eq] at hown
        exact absurd hown (by simp)
      refine ⟨hpieces.inAlphabet_iff.mpr ?_, fun hmem => hnone _ hmem _ .lonePoint⟩
      intro c hc
      by_contra houtside
      exact hnone _ hc _ (.stranger houtside)
    · rintro ⟨halphabet, hpoint⟩
      cases htokens : tokenize input with
      | ok tokens => exact ⟨tokens, rfl⟩
      | error e =>
          obtain ⟨before, lexeme, after, hscan, -, hlexeme⟩ := Token.ofLexemes_eq_error_iff.mp htokens
          have hmem : lexeme ∈ Lexeme.scan input.toList := by simp [hscan]
          obtain ⟨cause, hoffends, -⟩ := (Token.ofLexeme_eq_error_iff (hcut lexeme hmem)).mp hlexeme
          cases hoffends with
          | lonePoint => exact absurd hmem hpoint
          | stranger houtside =>
              exact absurd (hpieces.inAlphabet_iff.mp halphabet _ hmem) houtside
  · intro tokens htokens
    obtain ⟨groups, hgroups, rfl⟩ := Token.ofLexemes_eq_ok_iff.mp htokens
    exact ⟨groups, Lexeme.forall₂_standsFor hcut hgroups, rfl⟩
  · intro e he
    obtain ⟨before, lexeme, after, hscan, hbefore, hlexeme⟩ := Token.ofLexemes_eq_error_iff.mp he
    have hmem : lexeme ∈ Lexeme.scan input.toList := by simp [hscan]
    obtain ⟨cause, hoffends, rfl⟩ := (Token.ofLexeme_eq_error_iff (hcut lexeme hmem)).mp hlexeme
    refine ⟨before, lexeme, after, cause, hscan, ?_, hoffends, rfl⟩
    intro other hother cause' hoffends'
    obtain ⟨own, hown⟩ := hbefore other hother
    rw [hoffends'.ofLexeme_eq] at hown
    exact absurd hown (by simp)

/-- A second point begins a numeral of its own, and a word that is no name may fall into letters. -/
example : tokenize "1.2.3XexE" =
    .ok [.number 1.2, .number 0.3, .variable, .word "e", .variable, .word "e"] := by decide +kernel

/-- A point alone is named before a stranger behind it. -/
example : tokenize "2...#" = .error (.malformed (.invalidNumber ['.'])) := by decide +kernel

end

end Calculator
