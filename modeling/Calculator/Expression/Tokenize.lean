import Calculator.Expression.Lexeme
import Calculator.Expression.Token

/-!
# `Expression.Tokenize` — reading pieces of text as tokens

Expressions are written with ASCII operators or with the glyphs of a keypad, and in letters of either
case. All spellings of one expression give the same tokens.

## Contents

* `Token.ofSymbol?`, `Token.ofWord`, `Token.ofLexeme` — the tokens of one piece
* `Token.ofLexemes_append`, `Token.ofLexemes_eq_error_iff` — pieces side by side, and the first that fails
* `tokenize`, `normalize` — the tokens of a text and its canonical form
* `mentionsVariable` — whether a text is to be graphed
-/

namespace Calculator

/-- The token that a symbol stands for. -/
def Token.ofSymbol? : Char → Option Token
  | '(' => some .opening
  | ')' => some .closing
  | '+' => some (.operator '+')
  | '-' | '−' => some (.operator '-')
  | '*' | '×' | '·' => some (.operator '*')
  | '/' | '÷' => some (.operator '/')
  | '^' => some (.operator '^')
  | 'π' => some (.word "pi")
  | _ => none

/-- A letter of a run that is read letter by letter. -/
def Token.ofLetter (letter : Char) : Token :=
  if letter = variableName then .variable else .word "e"

/-- The tokens of a word. Only a run of the letters `x` and `e` that is no name itself falls into
single letters, so that `xe` is a product while `exp` stays whole. -/
def Token.ofWord (letters : List Char) : List Token :=
  let lower := letters.map Char.toLower
  if !isName (String.ofList lower) && lower.all fun c => c == variableName || c == 'e' then
    lower.map Token.ofLetter
  else [.word (String.ofList lower)]

/-- The tokens of one piece of text: one for a `numeral` and a `symbol`, and for a `word` one for each name or
letter. -/
def Token.ofLexeme : Lexeme → Except ExprError (List Token)
  | .numeral text =>
    match readDecimal? text with
    | some d => .ok [.number (d.toFloat false)]
    | none => .error (.malformed (.invalidNumber text))
  | .word letters => .ok (Token.ofWord letters)
  | .symbol character =>
    match Token.ofSymbol? character with
    | some token => .ok [token]
    | none => .error (.malformed (.unknownCharacter character))

/-- The tokens of the pieces, or the error of the first piece that has none. -/
def Token.ofLexemes : List Lexeme → Except ExprError (List Token)
  | [] => .ok []
  | lexeme :: rest =>
    match Token.ofLexeme lexeme with
    | .error e => .error e
    | .ok tokens =>
      match Token.ofLexemes rest with
      | .error e => .error e
      | .ok others => .ok (tokens ++ others)

theorem Token.ofLexemes_cons (lexeme : Lexeme) (rest : List Lexeme) :
    ofLexemes (lexeme :: rest) =
      (ofLexeme lexeme).bind fun tokens => (ofLexemes rest).map (tokens ++ ·) := by
  rw [ofLexemes]
  cases ofLexeme lexeme with
  | error e => rfl
  | ok tokens => cases ofLexemes rest <;> rfl

/-- Pieces side by side are read one side after the other. -/
theorem Token.ofLexemes_append (lexemes others : List Lexeme) :
    ofLexemes (lexemes ++ others) =
      (ofLexemes lexemes).bind fun tokens => (ofLexemes others).map (tokens ++ ·) := by
  induction lexemes with
  | nil => cases h : ofLexemes others <;> simp [ofLexemes, Except.bind, Except.map, h]
  | cons lexeme rest ih =>
      rw [List.cons_append, ofLexemes_cons, ofLexemes_cons, ih]
      cases ofLexeme lexeme with
      | error e => rfl
      | ok own =>
          cases ofLexemes rest with
          | error e => rfl
          | ok tokens => cases ofLexemes others <;> simp [Except.bind, Except.map]

/-- Pieces have no tokens because of the first of them that has none. -/
theorem Token.ofLexemes_eq_error_iff {lexemes : List Lexeme} {e : ExprError} :
    ofLexemes lexemes = .error e ↔
      ∃ before lexeme after, lexemes = before ++ lexeme :: after ∧
        (∀ other ∈ before, ∃ own, ofLexeme other = .ok own) ∧ ofLexeme lexeme = .error e := by
  induction lexemes with
  | nil => simp [ofLexemes]
  | cons first rest ih =>
      rw [ofLexemes_cons]
      constructor
      · intro h
        cases hown : ofLexeme first with
        | error e' =>
            rw [hown] at h
            obtain rfl := Except.error.inj h
            exact ⟨[], first, rest, rfl, by simp, hown⟩
        | ok own =>
            cases hrest : ofLexemes rest with
            | ok others =>
                rw [hown, hrest] at h
                exact absurd h (by simp [Except.bind, Except.map])
            | error e' =>
                rw [hown, hrest] at h
                obtain rfl := Except.error.inj h
                obtain ⟨before, lexeme, after, rfl, hbefore, hlexeme⟩ := ih.mp hrest
                refine ⟨first :: before, lexeme, after, rfl, ?_, hlexeme⟩
                simpa using ⟨⟨own, hown⟩, hbefore⟩
      · rintro ⟨before, lexeme, after, heq, hbefore, hlexeme⟩
        cases before with
        | nil =>
            obtain ⟨rfl, rfl⟩ := List.cons.inj heq
            rw [hlexeme]
            rfl
        | cons other before =>
            obtain ⟨rfl, rfl⟩ := List.cons.inj heq
            obtain ⟨own, hown⟩ := hbefore first List.mem_cons_self
            have hrest := ih.mpr ⟨before, lexeme, after, rfl,
              fun other hmem => hbefore other (List.mem_cons_of_mem first hmem), hlexeme⟩
            rw [hown, hrest]
            rfl

/-- The tokens of a text: `Token.ofLexemes` of what `Lexeme.scan` cuts it into. -/
def tokenize (input : String) : Except ExprError (List Token) :=
  Token.ofLexemes (Lexeme.scan input.toList)

/-- The canonical form of an expression: the `Token.text` of its tokens with one space between them. -/
def normalize (input : String) : Except ExprError String :=
  (tokenize input).map fun tokens => " ".intercalate (tokens.map Token.text)

/-- Whether the free variable occurs among the tokens. A text that has none is searched for `variableName`. -/
def mentionsVariable (input : String) : Bool :=
  match tokenize input with
  | .ok tokens => tokens.contains .variable
  | .error _ => input.toList.any fun c => c.toLower == variableName

end Calculator
