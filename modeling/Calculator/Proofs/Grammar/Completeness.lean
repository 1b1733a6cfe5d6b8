import Calculator.Proofs.Grammar.Soundness

/-!
# `Proofs.Grammar.Completeness` — what has a derivation is read

A reader goes on as long as the next token lets it. So a phrase is read off the front of `tokens ++ rest`
only if `rest` does not begin with a token that would continue it, and every rule of the grammar has to
show that the phrases inside it are followed by such a token. A sum or a product ends where its readers
find no further operator; up to there each rule that begins with itself is one more round.

## Contents

* `Category.looseness`, `Token.looseness`, `Ends` — when a token ends a phrase
* `Reader.resume` — going on with rounds in the middle of a chain
* `Completes`, `Derives.completes` — every derivation is read
* `Derives.tree_unique` — the grammar is unambiguous
* `DerivesWithin.ofTokens`, `derivesWithin_of_ofTokens`, `Expr.ofTokens_malformed` — whole lists of tokens
-/

namespace Calculator

/-! ## Where a phrase ends -/

/-- The place of a category among the categories, the tightest first. A signed operand ends as the power
in it does. -/
def Category.looseness : Category → Nat
  | .primary => 0
  | .power | .signed => 1
  | .product => 2
  | .sum => 3

/-- The tightest category that a token continues; beyond all of them if it continues none. -/
def Token.looseness : Token → Nat
  | .operator '^' => 1
  | .operator '*' | .operator '/' | .opening | .word _ | .variable => 2
  | .operator '+' | .operator '-' => 3
  | .operator _ | .number _ | .closing => 4

/-- A phrase of the category ends in front of `rest`. -/
def Ends (category : Category) (rest : List Token) : Prop :=
  ∀ token ∈ rest.head?, category.looseness < token.looseness

section

variable {whole operandOf category : Category} {bound levels nesting : Nat}
  {reader operand : Reader} {below : Readers} {tokens rest : List Token}
  {left right tree tree' : Expr} {sign : Char} {token : Token}
  {next? : List Token → Option (Char × List Token)}

theorem ends_nil : Ends category [] := by
  intro token h
  exact absurd h (by simp)

theorem ends_cons : Ends category (token :: rest) ↔ category.looseness < token.looseness := by
  simp [Ends]

theorem Ends.of_looser (h : Ends whole rest) (hle : category.looseness ≤ whole.looseness) :
    Ends category rest :=
  fun token ht => Nat.lt_of_le_of_lt hle (h token ht)

theorem beginsFactor_cases (h : token.beginsFactor = true) :
    token = .opening ∨ (∃ letters, token = .word letters) ∨ token = .variable := by
  cases token <;> simp_all [Token.beginsFactor]

theorem looseness_of_beginsFactor (h : token.beginsFactor = true) : token.looseness = 2 := by
  rcases beginsFactor_cases h with rfl | ⟨letters, rfl⟩ | rfl <;> rfl

/-! ## Operators -/

theorem sumOperator?_of_ends (h : Ends .sum rest) : sumOperator? rest = none := by
  cases hnext : sumOperator? rest with
  | none => rfl
  | some result =>
      obtain ⟨sign, afterOp⟩ := result
      obtain ⟨hsign, rfl⟩ := sumOperator?_cases hnext
      have hlt := ends_cons.mp h
      rcases hsign with rfl | rfl <;> exact absurd hlt (by decide)

theorem productOperator?_of_ends (h : Ends .product rest) : productOperator? rest = none := by
  cases hnext : productOperator? rest with
  | none => rfl
  | some result =>
      obtain ⟨sign, afterOp⟩ := result
      rcases productOperator?_cases hnext with ⟨hsign, rfl⟩ | ⟨-, rfl, token, ts, hbegins, rfl⟩
      · have hlt := ends_cons.mp h
        rcases hsign with rfl | rfl <;> exact absurd hlt (by decide)
      · have hlt := ends_cons.mp h
        rw [looseness_of_beginsFactor hbegins] at hlt
        exact absurd hlt (by decide)

theorem sumOperator?_operator (h : sign = '+' ∨ sign = '-') (rest : List Token) :
    sumOperator? (.operator sign :: rest) = some (sign, rest) := by
  rcases h with rfl | rfl <;> rfl

theorem productOperator?_operator (h : sign = '*' ∨ sign = '/') (rest : List Token) :
    productOperator? (.operator sign :: rest) = some (sign, rest) := by
  rcases h with rfl | rfl <;> rfl

theorem productOperator?_beginsFactor (h : token.beginsFactor = true) (rest : List Token) :
    productOperator? (token :: rest) = some ('*', token :: rest) := by
  rcases beginsFactor_cases h with rfl | ⟨letters, rfl⟩ | rfl <;> rfl

/-! ## Going on in the middle of a chain -/

/-- Reads the rounds that follow what has been read so far. -/
def Reader.resume (next? : List Token → Option (Char × List Token)) (operand : Reader)
    (left : Expr) : Reader :=
  fun tokens => Reader.rounds next? operand tokens.length left tokens

/-- Every round takes a token. -/
def Advances (next? : List Token → Option (Char × List Token)) (operand : Reader) : Prop :=
  ∀ {tokens sign afterOp right rest}, next? tokens = some (sign, afterOp) →
    operand afterOp = .ok (right, rest) → rest.length < tokens.length

theorem sumOperator?_advances (h : Reader.Sound category bound operand) :
    Advances sumOperator? operand := by
  intro tokens sign afterOp right rest hnext hr
  obtain ⟨-, rfl⟩ := sumOperator?_cases hnext
  have := h.length_lt hr
  rw [List.length_cons]
  omega

theorem productOperator?_advances (h : Reader.Sound category bound operand) :
    Advances productOperator? operand := by
  intro tokens sign afterOp right rest hnext hr
  have hlt := h.length_lt hr
  rcases productOperator?_cases hnext with ⟨-, rfl⟩ | ⟨-, rfl, -⟩
  · rw [List.length_cons]
    omega
  · exact hlt

/-- The number of rounds does not matter once there are as many as tokens. -/
theorem rounds_limit (hadv : Advances next? operand) (hnil : next? [] = none)
    {limit limit' : Nat} (h : tokens.length ≤ limit) (h' : tokens.length ≤ limit') :
    Reader.rounds next? operand limit left tokens =
      Reader.rounds next? operand limit' left tokens := by
  induction limit generalizing limit' left tokens with
  | zero =>
      -- no token is left, and without one no operator is found whatever the other limit is
      obtain rfl := List.length_eq_zero_iff.mp (Nat.le_zero.mp h)
      cases limit' with
      | zero => rfl
      | succ limit' => simp [Reader.rounds, hnil]
  | succ limit ih =>
      cases limit' with
      | zero =>
          obtain rfl := List.length_eq_zero_iff.mp (Nat.le_zero.mp h')
          simp [Reader.rounds, hnil]
      | succ limit' =>
          unfold Reader.rounds
          split
          · rfl
          · rename_i sign afterOp hnext
            cases hr : operand afterOp with
            | error e => rfl
            | ok result =>
                obtain ⟨right, rest⟩ := result
                have hlt := hadv hnext hr
                exact ih (by omega) (by omega)

theorem chain_of_ok (hr : operand tokens = .ok (left, rest)) :
    Reader.chain next? operand tokens = Reader.resume next? operand left rest := by
  simp [Reader.chain, Reader.resume, hr]

theorem resume_of_none (hnext : next? tokens = none) :
    Reader.resume next? operand left tokens = .ok (left, tokens) := by
  unfold Reader.resume
  cases tokens with
  | nil => rfl
  | cons token ts => simp [Reader.rounds, hnext]

theorem resume_of_some {afterOp : List Token} (hadv : Advances next? operand)
    (hnil : next? [] = none) (hnext : next? tokens = some (sign, afterOp))
    (hr : operand afterOp = .ok (right, rest)) :
    Reader.resume next? operand left tokens =
      Reader.resume next? operand (.binary sign left right) rest := by
  have hlt := hadv hnext hr
  unfold Reader.resume
  -- the round takes one from the limit but may take several tokens, so the limits differ from here on
  obtain ⟨k, hk⟩ : ∃ k, tokens.length = k + 1 := ⟨tokens.length - 1, by omega⟩
  rw [hk]
  simp only [Reader.rounds, hnext, hr]
  exact rounds_limit hadv hnil (by omega) (Nat.le_refl _)

/-! ## The readers of one level -/

theorem readPrimary_opening {ts : List Token}
    (hsum : below.sum (ts ++ .closing :: rest) = .ok (tree, .closing :: rest)) :
    readPrimary below (.opening :: (ts ++ .closing :: rest)) = .ok (tree, rest) := by
  simp [readPrimary, readEnclosed, close, hsum]

theorem readPrimary_constant {name : String} (hknown : name ∈ Constant.names) :
    readPrimary below (.word name :: rest) = .ok (.constant name, rest) := by
  simp [readPrimary, readWord, Constant.named?_of_mem hknown]

theorem readPrimary_call {ts : List Token} {name : String} (hknown : name ∈ Function.names)
    (hsum : below.sum (ts ++ .closing :: rest) = .ok (tree, .closing :: rest)) :
    readPrimary below (.word name :: .opening :: (ts ++ .closing :: rest)) =
      .ok (.call name tree, rest) := by
  simp [readPrimary, readWord, Function.constantNamed?_of_mem hknown, Function.named?_of_mem hknown,
    readEnclosed, close, hsum]

theorem readPower_exponent {afterPow : List Token}
    (hbase : readPrimary below tokens = .ok (left, .operator '^' :: afterPow))
    (hexponent : below.signed afterPow = .ok (right, rest)) :
    readPower below tokens = .ok (.binary '^' left right, rest) := by
  simp [readPower, hbase, hexponent]

theorem readSigned_minus (hr : below.signed tokens = .ok (tree, rest)) :
    readSigned below (.operator '-' :: tokens) = .ok (.neg tree, rest) := by
  simp [readSigned, hr]

theorem readPower_of_ends (hr : readPrimary below tokens = .ok (tree, rest))
    (hends : Ends .power rest) : readPower below tokens = .ok (tree, rest) := by
  unfold readPower
  rw [hr]
  split
  · rename_i heq
    exact absurd heq (by simp)
  · rename_i base afterPow heq
    simp only [Except.ok.injEq, Prod.mk.injEq] at heq
    obtain ⟨rfl, rfl⟩ := heq
    exact absurd (ends_cons.mp hends) (by decide)
  · rename_i result _ heq
    exact heq.symm

/-- A power begins with the token of a primary, which is no sign. -/
theorem Derives.head_ne_operator (h : Derives category nesting tokens tree)
    (hc : category = .primary ∨ category = .power) (sign : Char) (rest : List Token) :
    tokens ++ rest ≠ .operator sign :: (tokens ++ rest).tail := by
  have hprimary : ∀ {n ts t}, Derives .primary n ts t → ∀ others,
      ts ++ others ≠ .operator sign :: (ts ++ others).tail := by
    intro n ts t h others
    cases h <;> simp
  rcases hc with rfl | rfl
  · exact hprimary h rest
  · cases h with
    | ofPrimary primary => exact hprimary primary rest
    | exponentiation primary signed =>
        rw [List.append_assoc]
        exact hprimary primary _

theorem readSigned_of_power (h : Derives .power nesting tokens tree) :
    readSigned below (tokens ++ rest) = readPower below (tokens ++ rest) := by
  unfold readSigned
  split
  · rename_i heq
    exact absurd heq (by simpa [heq] using h.head_ne_operator (.inr rfl) '-' rest)
  · rename_i heq
    exact absurd heq (by simpa [heq] using h.head_ne_operator (.inr rfl) '+' rest)
  · rfl

/-! ## Every derivation is read -/

/-- What a derivation is to promise about the readers with `levels` levels below them: in front of tokens
that do not continue the phrase it is taken off. For the two categories that are chains this is said of
the middle of the chain already, in front of anything that does not continue the last operand. -/
def Completes (levels : Nat) : Category → List Token → Expr → Prop
  | .sum, tokens, tree => ∀ rest, Ends .product rest →
      readSum (Readers.allowing levels) (tokens ++ rest) =
        Reader.resume sumOperator? (readProduct (Readers.allowing levels)) tree rest
  | .product, tokens, tree => ∀ rest, Ends .signed rest →
      readProduct (Readers.allowing levels) (tokens ++ rest) =
        Reader.resume productOperator? (readSigned (Readers.allowing levels)) tree rest
  | .signed, tokens, tree => ∀ rest, Ends .signed rest →
      readSigned (Readers.allowing levels) (tokens ++ rest) = .ok (tree, rest)
  | .power, tokens, tree => ∀ rest, Ends .power rest →
      readPower (Readers.allowing levels) (tokens ++ rest) = .ok (tree, rest)
  | .primary, tokens, tree => ∀ rest,
      readPrimary (Readers.allowing levels) (tokens ++ rest) = .ok (tree, rest)

theorem Completes.readProduct (h : Completes levels .product tokens tree)
    (hends : Ends .product rest) :
    readProduct (Readers.allowing levels) (tokens ++ rest) = .ok (tree, rest) := by
  rw [h rest (hends.of_looser (by decide))]
  exact resume_of_none (productOperator?_of_ends hends)

theorem Completes.readSum (h : Completes levels .sum tokens tree) (hends : Ends .sum rest) :
    readSum (Readers.allowing levels) (tokens ++ rest) = .ok (tree, rest) := by
  rw [h rest (hends.of_looser (by decide))]
  exact resume_of_none (sumOperator?_of_ends hends)

theorem Completes.addition {ts₁ ts₂ : List Token} (hsign : sign = '+' ∨ sign = '-')
    (hsum : Completes levels .sum ts₁ left) (hproduct : Completes levels .product ts₂ right) :
    Completes levels .sum (ts₁ ++ .operator sign :: ts₂) (.binary sign left right) := by
  intro rest hends
  have hbefore : Ends .product (.operator sign :: (ts₂ ++ rest)) := by
    rw [ends_cons]
    rcases hsign with rfl | rfl <;> decide
  rw [List.append_assoc, List.cons_append, hsum _ hbefore]
  exact resume_of_some
    (sumOperator?_advances (readProduct_sound (Readers.allowing_sound levels))) rfl
    (sumOperator?_operator hsign _) (hproduct.readProduct hends)

theorem Completes.multiplication {ts₁ ts₂ : List Token} (hsign : sign = '*' ∨ sign = '/')
    (hproduct : Completes levels .product ts₁ left) (hsigned : Completes levels .signed ts₂ right) :
    Completes levels .product (ts₁ ++ .operator sign :: ts₂) (.binary sign left right) := by
  intro rest hends
  have hbefore : Ends .signed (.operator sign :: (ts₂ ++ rest)) := by
    rw [ends_cons]
    rcases hsign with rfl | rfl <;> decide
  rw [List.append_assoc, List.cons_append, hproduct _ hbefore]
  exact resume_of_some
    (productOperator?_advances (readSigned_sound (Readers.allowing_sound levels))) rfl
    (productOperator?_operator hsign _) (hsigned rest hends)

theorem Completes.juxtaposition {ts₁ ts₂ : List Token} (hbegins : token.beginsFactor = true)
    (hproduct : Completes levels .product ts₁ left)
    (hsigned : Completes levels .signed (token :: ts₂) right) :
    Completes levels .product (ts₁ ++ token :: ts₂) (.binary '*' left right) := by
  intro rest hends
  have hbegins' : Ends .signed (token :: (ts₂ ++ rest)) := by
    rw [ends_cons, looseness_of_beginsFactor hbegins]
    decide
  rw [List.append_assoc, List.cons_append, hproduct _ hbegins']
  exact resume_of_some
    (productOperator?_advances (readSigned_sound (Readers.allowing_sound levels))) rfl
    (productOperator?_beginsFactor hbegins _) (hsigned rest hends)

/-- **Every derivation is read** by `Readers.allowing`, whatever follows it that does not continue it
(`Completes`). Induction on the derivation; a rule that nests takes one level off, so that its inner phrase is
read by the level below. -/
theorem Derives.completes (h : Derives category nesting tokens tree) :
    ∀ {levels}, nesting ≤ levels → Completes levels category tokens tree := by
  induction h with
  | ofProduct product ih =>
      intro levels hle rest hends
      exact chain_of_ok ((ih hle).readProduct hends)
  | addition additive sum product ihs ihp =>
      intro levels hle
      exact (ihs (by omega)).addition additive (ihp (by omega))
  | ofSigned signed ih =>
      intro levels hle rest hends
      exact chain_of_ok (ih hle rest hends)
  | multiplication multiplicative product signed ihp ihs =>
      intro levels hle
      exact (ihp (by omega)).multiplication multiplicative (ihs (by omega))
  | juxtaposition begins product signed ihp ihs =>
      intro levels hle
      exact (ihp (by omega)).juxtaposition begins (ihs (by omega))
  | minus signed ih =>
      intro levels hle rest hends
      -- a level is left for the operand, since the sign counts as one
      obtain ⟨k, rfl⟩ : ∃ k, levels = k + 1 := ⟨levels - 1, by omega⟩
      exact readSigned_minus (ih (Nat.le_of_succ_le_succ hle) rest hends)
  | plus signed ih =>
      intro levels hle rest hends
      obtain ⟨k, rfl⟩ : ∃ k, levels = k + 1 := ⟨levels - 1, by omega⟩
      exact ih (Nat.le_of_succ_le_succ hle) rest hends
  | ofPower power ih =>
      intro levels hle rest hends
      rw [readSigned_of_power power]
      exact ih hle rest hends
  | ofPrimary primary ih =>
      intro levels hle rest hends
      exact readPower_of_ends (ih hle rest) hends
  | exponentiation primary signed ihp ihs =>
      intro levels hle rest hends
      obtain ⟨k, rfl⟩ : ∃ k, levels = k + 1 := ⟨levels - 1, by omega⟩
      rw [List.append_assoc, List.cons_append]
      exact readPower_exponent (ihp (Nat.le_trans (Nat.le_max_left _ _) hle) _)
        (ihs (by omega : _ ≤ k) rest hends)
  | number value =>
      intro levels hle rest
      rfl
  | constant known =>
      intro levels hle rest
      exact readPrimary_constant known
  | «variable» =>
      intro levels hle rest
      rfl
  | parentheses sum ih =>
      intro levels hle rest
      obtain ⟨k, rfl⟩ : ∃ k, levels = k + 1 := ⟨levels - 1, by omega⟩
      -- the closing parenthesis continues nothing, so the inner sum is read up to it
      have hr := (ih (Nat.le_of_succ_le_succ hle)).readSum
        (show Ends .sum (.closing :: rest) from ends_cons.mpr (by decide))
      simpa using readPrimary_opening hr
  | call known sum ih =>
      intro levels hle rest
      obtain ⟨k, rfl⟩ : ∃ k, levels = k + 1 := ⟨levels - 1, by omega⟩
      have hr := (ih (Nat.le_of_succ_le_succ hle)).readSum
        (show Ends .sum (.closing :: rest) from ends_cons.mpr (by decide))
      simpa using readPrimary_call known hr

theorem Derives.readSum (h : Derives .sum nesting tokens tree) (hle : nesting ≤ levels) :
    Calculator.readSum (Readers.allowing levels) tokens = .ok (tree, []) := by
  have hr := (h.completes hle).readSum ends_nil
  rwa [List.append_nil] at hr

/-- **The grammar is unambiguous**: no tokens have derivations of two trees. -/
theorem Derives.tree_unique {nesting' : Nat} (h : Derives .sum nesting tokens tree)
    (h' : Derives .sum nesting' tokens tree') : tree = tree' := by
  -- both are read at the level that is deep enough for either
  have hr := h.readSum (Nat.le_max_left nesting nesting')
  rw [h'.readSum (Nat.le_max_right nesting nesting')] at hr
  simp only [Except.ok.injEq, Prod.mk.injEq, and_true] at hr
  exact hr.symm

/-! ## Whole lists of tokens -/

theorem DerivesWithin.ofTokens (h : DerivesWithin nestingLimit tokens tree)
    (hlength : tokens.length ≤ tokenLimit) : Expr.ofTokens tokens = .ok tree := by
  obtain ⟨nesting, hn, hd⟩ := h
  unfold Expr.ofTokens
  rw [if_neg hd.tokens_ne_nil, if_neg (Nat.not_lt.mpr hlength), hd.readSum hn]

theorem derivesWithin_of_ofTokens (h : Expr.ofTokens tokens = .ok tree) :
    tokens.length ≤ tokenLimit ∧ DerivesWithin nestingLimit tokens tree := by
  unfold Expr.ofTokens at h
  split at h
  · exact absurd h (by simp)
  · split at h
    · exact absurd h (by simp)
    · rename_i hlength
      split at h
      · exact absurd h (by simp)
      · rename_i tree' hr
        injection h with h
        subst h
        obtain ⟨taken, nesting, htaken, hn, hd⟩ :=
          (readSum_sound (Readers.allowing_sound nestingLimit)).of_ok hr
        rw [List.append_nil] at htaken
        subst htaken
        exact ⟨Nat.not_lt.mp hlength, nesting, Nat.le_of_lt_succ hn, hd⟩
      · exact absurd h (by simp)

theorem Expr.ofTokens_malformed {e : ExprError} (h : Expr.ofTokens tokens = .error e) :
    ∃ cause, e = .malformed cause := by
  unfold Expr.ofTokens at h
  split at h
  · exact ⟨.empty, by simpa using h.symm⟩
  · split at h
    · exact ⟨.tooManyTokens, by simpa using h.symm⟩
    · split at h
      · rename_i e' hr
        injection h with h
        subst h
        exact (readSum_sound (Readers.allowing_sound nestingLimit)).of_error hr
      · exact absurd h (by simp)
      · rename_i tree token others hr
        exact ⟨.trailing token, by simpa using h.symm⟩

/-- **Reading decides the grammar.** `Expr.ofTokens` gives a tree exactly if the tokens are at least one, at
most `tokenLimit`, and have a derivation of that tree within `nestingLimit` (`DerivesWithin`). No tokens have
derivations of two trees, and tokens that are not read are `.malformed`, whatever they hold. -/
theorem Expr.ofTokens_decides_grammar (tokens : List Token) :
    (∀ tree, Expr.ofTokens tokens = .ok tree ↔
      1 ≤ tokens.length ∧ tokens.length ≤ tokenLimit ∧ DerivesWithin nestingLimit tokens tree) ∧
    (∀ nesting nesting' tree tree', Derives .sum nesting tokens tree →
      Derives .sum nesting' tokens tree' → tree = tree') ∧
    ((∃ tree, Expr.ofTokens tokens = .ok tree) ∨
      ∃ cause, Expr.ofTokens tokens = .error (.malformed cause)) := by
  refine ⟨fun tree => ⟨?_, ?_⟩, fun _ _ _ _ h h' => h.tree_unique h', ?_⟩
  · intro h
    obtain ⟨hlength, nesting, hn, hd⟩ := derivesWithin_of_ofTokens h
    exact ⟨hd.length_pos, hlength, nesting, hn, hd⟩
  · rintro ⟨-, hlength, hd⟩
    exact hd.ofTokens hlength
  · cases h : Expr.ofTokens tokens with
    | ok tree => exact .inl ⟨tree, rfl⟩
    | error e =>
        obtain ⟨cause, rfl⟩ := Expr.ofTokens_malformed h
        exact .inr ⟨cause, rfl⟩

end

end Calculator
