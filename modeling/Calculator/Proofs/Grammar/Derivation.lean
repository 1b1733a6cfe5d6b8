import Calculator.Expression.Reading

/-!
# `Proofs.Grammar.Derivation` — the grammar of expressions as a relation

Reading decides where an expression ends by looking one token ahead. The grammar itself looks at
nothing but the tokens of the expression: it says which tokens are a sum, a product, a signed operand,
a power or a primary, and which tree they stand for. Sums and products are rules that begin with
themselves, which is what grouping to the left means.

## Contents

* `Category` — what a list of tokens can be
* `Token.beginsFactor` — where the sign of a product may be left out
* `Derives` — the rules, with a count of how deep they are nested
* `DerivesWithin` — expressions that keep to a limit of nesting
-/

namespace Calculator

/-- What a list of tokens can be, loosest first. -/
inductive Category where
  | sum | product | signed | power | primary
deriving Repr, DecidableEq

/-- Whether the sign of a product may be left out in front of a token. -/
def Token.beginsFactor : Token → Bool
  | .opening | .word _ | .variable => true
  | _ => false

/-- **The grammar.** `Derives category nesting tokens tree`: all of `tokens` together are a phrase of
the category and stand for `tree`, where `nesting` is the greatest number of parentheses, calls, signs
and exponents around one of them. -/
inductive Derives : Category → Nat → List Token → Expr → Prop where
  | ofProduct {n : Nat} {ts : List Token} {tree : Expr} (product : Derives .product n ts tree) :
      Derives .sum n ts tree
  | addition {n₁ n₂ : Nat} {ts₁ ts₂ : List Token} {left right : Expr} {sign : Char}
      (additive : sign = '+' ∨ sign = '-')
      (sum : Derives .sum n₁ ts₁ left) (product : Derives .product n₂ ts₂ right) :
      Derives .sum (max n₁ n₂) (ts₁ ++ .operator sign :: ts₂) (.binary sign left right)
  | ofSigned {n : Nat} {ts : List Token} {tree : Expr} (signed : Derives .signed n ts tree) :
      Derives .product n ts tree
  | multiplication {n₁ n₂ : Nat} {ts₁ ts₂ : List Token} {left right : Expr} {sign : Char}
      (multiplicative : sign = '*' ∨ sign = '/')
      (product : Derives .product n₁ ts₁ left) (signed : Derives .signed n₂ ts₂ right) :
      Derives .product (max n₁ n₂) (ts₁ ++ .operator sign :: ts₂) (.binary sign left right)
  | juxtaposition {n₁ n₂ : Nat} {ts₁ ts₂ : List Token} {left right : Expr} {token : Token}
      (begins : token.beginsFactor = true)
      (product : Derives .product n₁ ts₁ left)
      (signed : Derives .signed n₂ (token :: ts₂) right) :
      Derives .product (max n₁ n₂) (ts₁ ++ token :: ts₂) (.binary '*' left right)
  | minus {n : Nat} {ts : List Token} {tree : Expr} (signed : Derives .signed n ts tree) :
      Derives .signed (n + 1) (.operator '-' :: ts) (.neg tree)
  | plus {n : Nat} {ts : List Token} {tree : Expr} (signed : Derives .signed n ts tree) :
      Derives .signed (n + 1) (.operator '+' :: ts) tree
  | ofPower {n : Nat} {ts : List Token} {tree : Expr} (power : Derives .power n ts tree) :
      Derives .signed n ts tree
  | ofPrimary {n : Nat} {ts : List Token} {tree : Expr} (primary : Derives .primary n ts tree) :
      Derives .power n ts tree
  | exponentiation {n₁ n₂ : Nat} {ts₁ ts₂ : List Token} {base exponent : Expr}
      (primary : Derives .primary n₁ ts₁ base) (signed : Derives .signed n₂ ts₂ exponent) :
      Derives .power (max n₁ (n₂ + 1)) (ts₁ ++ .operator '^' :: ts₂) (.binary '^' base exponent)
  | number (value : Float) : Derives .primary 0 [.number value] (.number value)
  | constant {name : String} (known : name ∈ Constant.names) :
      Derives .primary 0 [.word name] (.constant name)
  | variable : Derives .primary 0 [.variable] .variable
  | parentheses {n : Nat} {ts : List Token} {tree : Expr} (sum : Derives .sum n ts tree) :
      Derives .primary (n + 1) (.opening :: (ts ++ [.closing])) tree
  | call {n : Nat} {ts : List Token} {tree : Expr} {name : String} (known : name ∈ Function.names)
      (sum : Derives .sum n ts tree) :
      Derives .primary (n + 1) (.word name :: .opening :: (ts ++ [.closing])) (.call name tree)

/-- The tokens are an expression that stands for `tree`, nested at most `levels` deep. -/
def DerivesWithin (levels : Nat) (tokens : List Token) (tree : Expr) : Prop :=
  ∃ nesting ≤ levels, Derives .sum nesting tokens tree

section

variable {category : Category} {nesting : Nat} {tokens : List Token} {tree : Expr}

/-- Every phrase has a token. -/
theorem Derives.tokens_ne_nil (h : Derives category nesting tokens tree) : tokens ≠ [] := by
  induction h <;> simp_all

theorem Derives.length_pos (h : Derives category nesting tokens tree) : 0 < tokens.length :=
  List.length_pos_iff.mpr h.tokens_ne_nil

end

end Calculator
