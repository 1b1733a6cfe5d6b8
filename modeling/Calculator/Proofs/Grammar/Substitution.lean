import Calculator.Expression.Value
import Calculator.Proofs.Grammar.Completeness
import Calculator.Proofs.Number.Negation

/-!
# `Proofs.Grammar.Substitution` — a number written in the place of the variable

The free variable gets its value while a tree is evaluated. The same value can be written into the
tokens beforehand, in parentheses so that it stands wherever the variable may stand: as a base, as a
factor without a sign of a product, behind another operand. A number below zero is written with a sign
of its own, since there are no negative numerals.

Both roads lead to the same value. A derivation of the tokens before becomes one of the tokens after,
rule by rule, at most two levels deeper; its tree is the tree before with the number at its leaves; and
that tree has the value, or the error, that the tree before has at the number.

## Contents

* `Token.substitute`, `substitute`, `Expr.substitute` — writing the number
* `Derives.substitute`, `DerivesWithin.substitute` — derivations of the tokens after
* `Expr.eval_substitute` — the value of the tree after
-/

namespace Calculator

/-! ## Writing the number -/

/-- The tokens that spell a number where a sum may stand. -/
def signedNumeral (v : Float) : List Token :=
  if 0 ≤ v then [.number v] else [.operator '-', .number (-v)]

/-- The tokens that a token becomes: the variable, the number in parentheses; any other, itself. -/
def Token.substitute (v : Float) : Token → List Token
  | .variable => .opening :: (signedNumeral v ++ [.closing])
  | token => [token]

/-- The tokens with the number in every place of the variable. -/
def substitute (v : Float) (tokens : List Token) : List Token :=
  tokens.flatMap (Token.substitute v)

/-- The tree that a number is spelled as. -/
def Expr.ofNumber (v : Float) : Expr :=
  if 0 ≤ v then .number v else .neg (.number (-v))

/-- The tree with the number at every leaf of the variable. -/
def Expr.substitute (v : Float) : Expr → Expr
  | .number value => .number value
  | .constant name => .constant name
  | .variable => .ofNumber v
  | .neg operand => .neg (operand.substitute v)
  | .binary sign left right => .binary sign (left.substitute v) (right.substitute v)
  | .call name argument => .call name (argument.substitute v)

section

variable {category : Category} {nesting levels : Nat} {tokens : List Token} {tree : Expr} {v : Float}
  {token : Token}

@[simp]
theorem substitute_append (ts ts' : List Token) :
    substitute v (ts ++ ts') = substitute v ts ++ substitute v ts' :=
  List.flatMap_append

@[simp]
theorem substitute_cons (token : Token) (ts : List Token) :
    substitute v (token :: ts) = token.substitute v ++ substitute v ts :=
  List.flatMap_cons

@[simp]
theorem substitute_nil : substitute v [] = [] := rfl

theorem Token.substitute_of_ne (h : token ≠ .variable) : token.substitute v = [token] := by
  cases token with
  | «variable» => exact absurd rfl h
  | number value => rfl
  | operator sign => rfl
  | word letters => rfl
  | opening => rfl
  | closing => rfl

/-- Where the sign of a product may be left out before, it may be left out after. -/
theorem Token.substitute_beginsFactor (h : token.beginsFactor = true) :
    ∃ first others, token.substitute v = first :: others ∧ first.beginsFactor = true := by
  by_cases hvar : token = .variable
  · subst hvar
    exact ⟨.opening, signedNumeral v ++ [.closing], rfl, rfl⟩
  · exact ⟨token, [], Token.substitute_of_ne hvar, h⟩

/-! ## Derivations -/

theorem Derives.ofPrimary_sum (h : Derives .primary nesting tokens tree) :
    Derives .sum nesting tokens tree :=
  .ofProduct (.ofSigned (.ofPower (.ofPrimary h)))

theorem derives_signedNumeral (v : Float) :
    ∃ n ≤ 1, Derives .sum n (signedNumeral v) (.ofNumber v) := by
  unfold signedNumeral Expr.ofNumber
  by_cases h : 0 ≤ v
  · rw [if_pos h, if_pos h]
    exact ⟨0, by omega, (Derives.number v).ofPrimary_sum⟩
  · rw [if_neg h, if_neg h]
    have hneg : Derives .signed 1 [.operator '-', .number (-v)] (.neg (.number (-v))) :=
      .minus (.ofPower (.ofPrimary (.number (-v))))
    exact ⟨1, by omega, .ofProduct (.ofSigned hneg)⟩

/-- **Every phrase stays a phrase** of its category under `substitute`, with the number at the leaves of its
tree, and at most two levels deeper: one for the parentheses and one for the sign. -/
theorem Derives.substitute (h : Derives category nesting tokens tree) (v : Float) :
    ∃ n ≤ nesting + 2,
      Derives category n (Calculator.substitute v tokens) (tree.substitute v) := by
  induction h with
  | ofProduct product ih =>
      obtain ⟨n, hn, hd⟩ := ih
      exact ⟨n, hn, .ofProduct hd⟩
  | addition additive sum product ihs ihp =>
      obtain ⟨n₁, hn₁, hd₁⟩ := ihs
      obtain ⟨n₂, hn₂, hd₂⟩ := ihp
      refine ⟨max n₁ n₂, by omega, ?_⟩
      rw [substitute_append, substitute_cons, Token.substitute_of_ne (by simp)]
      exact .addition additive hd₁ hd₂
  | ofSigned signed ih =>
      obtain ⟨n, hn, hd⟩ := ih
      exact ⟨n, hn, .ofSigned hd⟩
  | multiplication multiplicative product signed ihp ihs =>
      obtain ⟨n₁, hn₁, hd₁⟩ := ihp
      obtain ⟨n₂, hn₂, hd₂⟩ := ihs
      refine ⟨max n₁ n₂, by omega, ?_⟩
      rw [substitute_append, substitute_cons, Token.substitute_of_ne (by simp)]
      exact .multiplication multiplicative hd₁ hd₂
  | juxtaposition begins product signed ihp ihs =>
      obtain ⟨n₁, hn₁, hd₁⟩ := ihp
      obtain ⟨n₂, hn₂, hd₂⟩ := ihs
      -- the token that begins the factor is the variable or another one; either way a token that may
      -- begin a factor comes first
      obtain ⟨first, others, heq, hfirst⟩ := Token.substitute_beginsFactor (v := v) begins
      refine ⟨max n₁ n₂, by omega, ?_⟩
      rw [substitute_cons, heq, List.cons_append] at hd₂
      rw [substitute_append, substitute_cons, heq, List.cons_append]
      exact .juxtaposition hfirst hd₁ hd₂
  | minus signed ih =>
      obtain ⟨n, hn, hd⟩ := ih
      exact ⟨n + 1, by omega, .minus hd⟩
  | plus signed ih =>
      obtain ⟨n, hn, hd⟩ := ih
      exact ⟨n + 1, by omega, .plus hd⟩
  | ofPower power ih =>
      obtain ⟨n, hn, hd⟩ := ih
      exact ⟨n, hn, .ofPower hd⟩
  | ofPrimary primary ih =>
      obtain ⟨n, hn, hd⟩ := ih
      exact ⟨n, hn, .ofPrimary hd⟩
  | exponentiation primary signed ihp ihs =>
      obtain ⟨n₁, hn₁, hd₁⟩ := ihp
      obtain ⟨n₂, hn₂, hd₂⟩ := ihs
      refine ⟨max n₁ (n₂ + 1), by omega, ?_⟩
      rw [substitute_append, substitute_cons, Token.substitute_of_ne (by simp)]
      exact .exponentiation hd₁ hd₂
  | number value => exact ⟨0, by omega, .number value⟩
  | constant known => exact ⟨0, by omega, .constant known⟩
  | «variable» =>
      obtain ⟨n, hn, hd⟩ := derives_signedNumeral v
      refine ⟨n + 1, by omega, ?_⟩
      rw [substitute_cons, substitute_nil, List.append_nil]
      exact .parentheses hd
  | parentheses sum ih =>
      obtain ⟨n, hn, hd⟩ := ih
      refine ⟨n + 1, by omega, ?_⟩
      rw [substitute_cons, substitute_append, Token.substitute_of_ne (by simp)]
      exact .parentheses hd
  | call known sum ih =>
      obtain ⟨n, hn, hd⟩ := ih
      refine ⟨n + 1, by omega, ?_⟩
      rw [substitute_cons, substitute_cons, substitute_append, Token.substitute_of_ne (by simp),
        Token.substitute_of_ne (by simp)]
      exact .call known hd

theorem DerivesWithin.substitute (h : DerivesWithin levels tokens tree) (v : Float) :
    DerivesWithin (levels + 2) (Calculator.substitute v tokens) (tree.substitute v) := by
  obtain ⟨nesting, hle, hd⟩ := h
  obtain ⟨n, hn, hd'⟩ := hd.substitute v
  exact ⟨n, by omega, hd'⟩

/-! ## Values -/

theorem Expr.eval_ofNumber (h : v.isFinite = true) : (Expr.ofNumber v).eval none = .ok v := by
  unfold Expr.ofNumber
  by_cases hv : 0 ≤ v
  · rw [if_pos hv]
    simp [Expr.eval, requireFinite, h]
  · rw [if_neg hv]
    simp [Expr.eval, requireFinite, h, Binary64.isFinite_neg h, Binary64.neg_neg_of_isFinite h]

/-- The tree with the number at its leaves has the value that the tree has at the number, and where
there is none, the same error. -/
theorem Expr.eval_substitute (h : v.isFinite = true) (tree : Expr) :
    (tree.substitute v).eval none = tree.eval (some v) := by
  induction tree with
  | number value => rfl
  | constant name => rfl
  | «variable» =>
      rw [Expr.substitute, Expr.eval_ofNumber h]
      simp [Expr.eval, requireFinite, h]
  | neg operand ih => simp only [Expr.substitute, Expr.eval, ih]
  | binary sign left right ihl ihr => simp only [Expr.substitute, Expr.eval, ihl, ihr]
  | call name argument ih => simp only [Expr.substitute, Expr.eval, ih]

end

end Calculator
