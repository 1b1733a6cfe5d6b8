import Calculator.Proofs.Grammar.Derivation

/-!
# `Proofs.Grammar.Soundness` — what is read has a derivation

Every reader either takes a phrase of its category off the front of the tokens or refuses them as
malformed. The readers of one level are shown sound over the readers of the level below, in the order
in which they are defined, and the levels follow by induction.

## Contents

* `Reads`, `Reader.Sound`, `Readers.Sound` — the statement
* `readEnclosed_sound` … `readSum_sound` — the readers of a level
* `Readers.allowing_sound` — all levels
* `Reader.Sound.length_lt` — a reader always takes a token
-/

namespace Calculator

/-- The result that a reader of a category may give: a tree for what it took off the front, nested less
than `bound` deep, or the reason why no phrase stands there. -/
def Reads (category : Category) (bound : Nat) (tokens : List Token) :
    Except ExprError (Expr × List Token) → Prop
  | .ok (tree, rest) =>
    ∃ taken nesting, tokens = taken ++ rest ∧ nesting < bound ∧ Derives category nesting taken tree
  | .error e => ∃ cause, e = .malformed cause

/-- **Soundness of a reader**: whatever it gives for tokens is a phrase of its category (`Reads`). -/
def Reader.Sound (category : Category) (bound : Nat) (reader : Reader) : Prop :=
  ∀ tokens, Reads category bound tokens (reader tokens)

/-- **Soundness of a level**: both of its readers are `Reader.Sound`. -/
structure Readers.Sound (bound : Nat) (readers : Readers) : Prop where
  sum : Reader.Sound .sum bound readers.sum
  signed : Reader.Sound .signed bound readers.signed

section

variable {whole operandOf category : Category} {bound : Nat} {reader operand : Reader}
  {below : Readers} {tokens rest : List Token} {tree : Expr} {e : ExprError}
  {next? : List Token → Option (Char × List Token)}

theorem Reader.Sound.of_ok (h : Reader.Sound category bound reader)
    (hr : reader tokens = .ok (tree, rest)) :
    ∃ taken nesting, tokens = taken ++ rest ∧ nesting < bound ∧
      Derives category nesting taken tree := by
  have hread := h tokens
  rw [hr] at hread
  exact hread

theorem Reader.Sound.of_error (h : Reader.Sound category bound reader)
    (hr : reader tokens = .error e) : ∃ cause, e = .malformed cause := by
  have hread := h tokens
  rw [hr] at hread
  exact hread

/-- A reader always takes a token. -/
theorem Reader.Sound.length_lt (h : Reader.Sound category bound reader)
    (hr : reader tokens = .ok (tree, rest)) : rest.length < tokens.length := by
  obtain ⟨taken, nesting, rfl, -, hd⟩ := h.of_ok hr
  have := hd.length_pos
  rw [List.length_append]
  omega

/-! ## Parentheses, words and primaries -/

theorem close_cases (tree : Expr) (tokens : List Token) :
    (∃ rest, tokens = .closing :: rest ∧ close (tree, tokens) = .ok (tree, rest)) ∨
      close (tree, tokens) = .error (.malformed .unclosed) := by
  unfold close
  split
  · rename_i tree' rest heq
    simp only [Prod.mk.injEq] at heq
    obtain ⟨rfl, rfl⟩ := heq
    exact .inl ⟨rest, rfl, rfl⟩
  · exact .inr rfl

/-- A sum in parentheses, behind the opening one. -/
theorem readEnclosed_sound (h : below.Sound bound) (tokens : List Token) :
    match readEnclosed below tokens with
    | .ok (tree, rest) =>
      ∃ inner nesting, tokens = inner ++ .closing :: rest ∧ nesting < bound ∧
        Derives .sum nesting inner tree
    | .error e => ∃ cause, e = .malformed cause := by
  unfold readEnclosed
  cases hr : below.sum tokens with
  | error e => exact h.sum.of_error hr
  | ok result =>
      obtain ⟨tree, afterSum⟩ := result
      obtain ⟨inner, nesting, rfl, hn, hd⟩ := h.sum.of_ok hr
      rcases close_cases tree afterSum with ⟨rest, rfl, hclose⟩ | hclose
      · simp only [hclose]
        exact ⟨inner, nesting, rfl, hn, hd⟩
      · simp only [hclose]
        exact ⟨.unclosed, rfl⟩

/-- A word with what belongs to it, read behind the word. -/
theorem readWord_sound (h : below.Sound bound) (letters : String) (tokens : List Token) :
    Reads .primary (bound + 1) (.word letters :: tokens) (readWord below letters tokens) := by
  unfold readWord
  cases hc : Constant.named? letters with
  | some name =>
      obtain ⟨hknown, rfl⟩ := Constant.named?_eq_some_iff.mp hc
      exact ⟨[.word letters], 0, rfl, Nat.succ_pos bound, .constant hknown⟩
  | none =>
      cases hf : Function.named? letters with
      | none => exact ⟨.unknownName letters, rfl⟩
      | some name =>
          obtain ⟨hknown, rfl⟩ := Function.named?_eq_some_iff.mp hf
          simp only
          split
          · rename_i inner
            have hin := readEnclosed_sound h inner
            split at hin
            · rename_i argument rest heq
              obtain ⟨ts, n, rfl, hn, hd⟩ := hin
              rw [heq]
              exact ⟨_, n + 1, by simp, by omega, .call hknown hd⟩
            · rename_i e heq
              rw [heq]
              exact hin
          · exact ⟨.callWithoutParentheses letters, rfl⟩

theorem readPrimary_sound (h : below.Sound bound) :
    Reader.Sound .primary (bound + 1) (readPrimary below) := by
  intro tokens
  unfold readPrimary
  split
  · exact ⟨.endOfInput, rfl⟩
  · rename_i value rest
    exact ⟨[.number value], 0, rfl, Nat.succ_pos bound, .number value⟩
  · exact ⟨[.variable], 0, rfl, Nat.succ_pos bound, .variable⟩
  · rename_i inner
    have hin := readEnclosed_sound h inner
    split at hin
    · rename_i tree rest heq
      obtain ⟨ts, n, rfl, hn, hd⟩ := hin
      rw [heq]
      exact ⟨_, n + 1, by simp, by omega, .parentheses hd⟩
    · rename_i e heq
      rw [heq]
      exact hin
  · exact readWord_sound h _ _
  · exact ⟨.unexpected _, rfl⟩

/-! ## Powers and signs -/

theorem readPower_sound (h : below.Sound bound) :
    Reader.Sound .power (bound + 1) (readPower below) := by
  intro tokens
  unfold readPower
  split
  · rename_i e hr
    exact (readPrimary_sound h).of_error hr
  · rename_i base afterSign hr
    obtain ⟨ts₁, n₁, rfl, hn₁, hd₁⟩ := (readPrimary_sound h).of_ok hr
    cases hx : below.signed afterSign with
    | error e => exact h.signed.of_error hx
    | ok result =>
        obtain ⟨exponent, rest⟩ := result
        obtain ⟨ts₂, n₂, rfl, hn₂, hd₂⟩ := h.signed.of_ok hx
        -- the exponent was read by the level below, which makes up for the level that it adds
        exact ⟨_, max n₁ (n₂ + 1), by simp, by omega, .exponentiation hd₁ hd₂⟩
  · rename_i result _ hr
    obtain ⟨base, rest⟩ := result
    obtain ⟨ts, n, rfl, hn, hd⟩ := (readPrimary_sound h).of_ok hr
    exact ⟨ts, n, rfl, hn, .ofPrimary hd⟩

theorem readSigned_sound (h : below.Sound bound) :
    Reader.Sound .signed (bound + 1) (readSigned below) := by
  intro tokens
  unfold readSigned
  split
  · rename_i afterSign
    cases hr : below.signed afterSign with
    | error e => exact h.signed.of_error hr
    | ok result =>
        obtain ⟨operand, rest⟩ := result
        obtain ⟨ts, n, rfl, hn, hd⟩ := h.signed.of_ok hr
        exact ⟨_, n + 1, by simp, by omega, .minus hd⟩
  · rename_i afterSign
    cases hr : below.signed afterSign with
    | error e => exact h.signed.of_error hr
    | ok result =>
        obtain ⟨operand, rest⟩ := result
        obtain ⟨ts, n, rfl, hn, hd⟩ := h.signed.of_ok hr
        exact ⟨_, n + 1, by simp, by omega, .plus hd⟩
  · cases hr : readPower below tokens with
    | error e => exact (readPower_sound h).of_error hr
    | ok result =>
        obtain ⟨operand, rest⟩ := result
        obtain ⟨ts, n, rfl, hn, hd⟩ := (readPower_sound h).of_ok hr
        exact ⟨ts, n, rfl, hn, .ofPower hd⟩

/-! ## Rounds

A round extends what has been read so far by an operator, written or left out, and an operand. -/

/-- The operators that `next?` finds extend a phrase of the category `whole` by one of the category
`operandOf`. -/
def Extends (next? : List Token → Option (Char × List Token)) (whole operandOf : Category) :
    Prop :=
  ∀ {taken tokens operandTokens rest sign left right n₁ n₂},
    Derives whole n₁ taken left → next? tokens = some (sign, operandTokens ++ rest) →
    Derives operandOf n₂ operandTokens right →
    ∃ more, tokens = more ++ rest ∧
      Derives whole (max n₁ n₂) (taken ++ more) (.binary sign left right)

theorem sumOperator?_cases {sign : Char} (h : sumOperator? tokens = some (sign, rest)) :
    (sign = '+' ∨ sign = '-') ∧ tokens = .operator sign :: rest := by
  unfold sumOperator? at h
  split at h
  · simp only [Option.some.injEq, Prod.mk.injEq] at h
    obtain ⟨rfl, rfl⟩ := h
    exact ⟨.inl rfl, rfl⟩
  · simp only [Option.some.injEq, Prod.mk.injEq] at h
    obtain ⟨rfl, rfl⟩ := h
    exact ⟨.inr rfl, rfl⟩
  · exact absurd h (by simp)

theorem productOperator?_cases {sign : Char} (h : productOperator? tokens = some (sign, rest)) :
    ((sign = '*' ∨ sign = '/') ∧ tokens = .operator sign :: rest) ∨
      (sign = '*' ∧ tokens = rest ∧ ∃ token ts, token.beginsFactor = true ∧ rest = token :: ts) := by
  unfold productOperator? at h
  split at h
  · simp only [Option.some.injEq, Prod.mk.injEq] at h
    obtain ⟨rfl, rfl⟩ := h
    exact .inl ⟨.inl rfl, rfl⟩
  · simp only [Option.some.injEq, Prod.mk.injEq] at h
    obtain ⟨rfl, rfl⟩ := h
    exact .inl ⟨.inr rfl, rfl⟩
  case h_6 => exact absurd h (by simp)
  all_goals
    simp only [Option.some.injEq, Prod.mk.injEq] at h
    obtain ⟨rfl, rfl⟩ := h
    exact .inr ⟨rfl, rfl, _, _, rfl, rfl⟩

theorem sumOperator?_extends : Extends sumOperator? .sum .product := by
  intro taken tokens operandTokens rest sign left right n₁ n₂ hl hnext hr
  obtain ⟨hsign, rfl⟩ := sumOperator?_cases hnext
  exact ⟨.operator sign :: operandTokens, rfl, .addition hsign hl hr⟩

/-- An operator that is left out takes no token: the operand begins where the product has ended. -/
theorem productOperator?_extends : Extends productOperator? .product .signed := by
  intro taken tokens operandTokens rest sign left right n₁ n₂ hl hnext hr
  rcases productOperator?_cases hnext with ⟨hsign, rfl⟩ | ⟨rfl, rfl, token, ts, hbegins, hts⟩
  · exact ⟨.operator sign :: operandTokens, rfl, .multiplication hsign hl hr⟩
  · cases operandTokens with
    | nil => exact absurd rfl hr.tokens_ne_nil
    | cons first others =>
        rw [List.cons_append, List.cons.injEq] at hts
        obtain ⟨rfl, -⟩ := hts
        exact ⟨first :: others, rfl, .juxtaposition hbegins hl hr⟩

/-- Induction on the rounds that are left; what has been read so far stays a phrase of the category. -/
theorem rounds_sound (ho : Reader.Sound operandOf bound operand)
    (hext : Extends next? whole operandOf) {limit : Nat} {left : Expr} {taken : List Token}
    {nesting : Nat} (hn : nesting < bound) (hd : Derives whole nesting taken left) :
    Reads whole bound (taken ++ tokens) (Reader.rounds next? operand limit left tokens) := by
  induction limit generalizing left taken tokens nesting with
  | zero => exact ⟨taken, nesting, rfl, hn, hd⟩
  | succ limit ih =>
      unfold Reader.rounds
      split
      · exact ⟨taken, nesting, rfl, hn, hd⟩
      · rename_i sign afterOp hnext
        cases hr : operand afterOp with
        | error e => exact ho.of_error hr
        | ok result =>
            obtain ⟨right, rest⟩ := result
            obtain ⟨ts, n, rfl, hn', hd'⟩ := ho.of_ok hr
            -- operator and operand move over to what has been read
            obtain ⟨more, rfl, hmore⟩ := hext hd hnext hd'
            rw [← List.append_assoc]
            exact ih (by omega) hmore

theorem chain_sound (ho : Reader.Sound operandOf bound operand)
    (hext : Extends next? whole operandOf)
    (hone : ∀ {n ts tree}, Derives operandOf n ts tree → Derives whole n ts tree) :
    Reader.Sound whole bound (Reader.chain next? operand) := by
  intro tokens
  unfold Reader.chain
  cases hr : operand tokens with
  | error e => exact ho.of_error hr
  | ok result =>
      obtain ⟨left, rest⟩ := result
      obtain ⟨ts, n, rfl, hn, hd⟩ := ho.of_ok hr
      exact rounds_sound ho hext hn (hone hd)

theorem readProduct_sound (h : below.Sound bound) :
    Reader.Sound .product (bound + 1) (readProduct below) :=
  chain_sound (readSigned_sound h) productOperator?_extends .ofSigned

theorem readSum_sound (h : below.Sound bound) :
    Reader.Sound .sum (bound + 1) (readSum below) :=
  chain_sound (readProduct_sound h) sumOperator?_extends .ofProduct

end

/-- **Every level is sound**: induction on the levels that `Readers.allowing` has left. -/
theorem Readers.allowing_sound (levels : Nat) : (Readers.allowing levels).Sound levels := by
  induction levels with
  | zero => exact ⟨fun _ => ⟨.tooDeep, rfl⟩, fun _ => ⟨.tooDeep, rfl⟩⟩
  | succ levels ih => exact ⟨readSum_sound ih, readSigned_sound ih⟩

end Calculator
