import Calculator.Expression.Tokenize
import Calculator.Expression.Tree

/-!
# `Expression.Reading` — reading tokens as a tree

The grammar, loosest first:

* sum: a product, then any number of `+` or `-`, each with a product
* product: a signed operand, then any number of `*` or `/`, each with a signed operand; where the
  next token is an opening parenthesis, a word or the variable, the operator may be left out
* signed operand: `-` or `+` with a signed operand, or a power
* power: a primary, and optionally `^` with a signed operand
* primary: a number, a constant, the variable, a sum in parentheses, or a function name with a sum in
  parentheses

Sums and products group to the left. What stands after a sign, after `^` and between parentheses is
read one level further down, and `nestingLimit` levels are allowed. The readers of one level are
therefore written over the readers of the level below, and `Readers.allowing` builds the levels by
recursion on how many are left; within a level every round of a sum or a product takes a token, so
the number of tokens bounds the rounds.

## Contents

* `Reader`, `Readers` — taking a tree off the front of a list of tokens
* `Reader.rounds`, `readPrimary`, `readPower`, `readSigned`, `readProduct`, `readSum`
* `Readers.allowing` — the readers of a level
* `Expr.ofTokens`, `compile` — the tree of a list of tokens and of a text
-/

namespace Calculator

/-- Takes a tree off the front of a list of tokens: the tree and the tokens left over. -/
abbrev Reader := List Token → Except ExprError (Expr × List Token)

/-- The readers that one level asks of the level below: one for a `sum` in parentheses and one for a `signed`
operand. -/
structure Readers where
  sum : Reader
  signed : Reader

/-! ## Rounds of an operator and an operand -/

/-- The operator that continues a sum, and the tokens behind it. -/
def sumOperator? : List Token → Option (Char × List Token)
  | .operator '+' :: rest => some ('+', rest)
  | .operator '-' :: rest => some ('-', rest)
  | _ => none

/-- The operator that continues a product, and the tokens at its operand: the same tokens where the
operator is left out. -/
def productOperator? : List Token → Option (Char × List Token)
  | .operator '*' :: rest => some ('*', rest)
  | .operator '/' :: rest => some ('/', rest)
  | .opening :: rest => some ('*', .opening :: rest)
  | .word letters :: rest => some ('*', .word letters :: rest)
  | .variable :: rest => some ('*', .variable :: rest)
  | _ => none

/-- Reads operators with their operands for as long as one continues, at most `limit` of them, and
groups to the left. -/
def Reader.rounds (next? : List Token → Option (Char × List Token)) (operand : Reader) :
    (limit : Nat) → (left : Expr) → Reader
  | 0, left, tokens => .ok (left, tokens)
  | limit + 1, left, tokens =>
    match next? tokens with
    | none => .ok (left, tokens)
    | some (sign, rest) =>
      match operand rest with
      | .error e => .error e
      | .ok (right, rest) => rounds next? operand limit (.binary sign left right) rest

/-- An operand and the rounds that follow it, as long as `next?` gives an operator; every round takes a token,
so that the number of tokens is limit enough. -/
def Reader.chain (next? : List Token → Option (Char × List Token)) (operand : Reader) : Reader :=
  fun tokens =>
    match operand tokens with
    | .error e => .error e
    | .ok (left, rest) => rounds next? operand rest.length left rest

/-! ## The readers of a level -/

/-- Takes the closing parenthesis behind a tree. -/
def close : Expr × List Token → Except ExprError (Expr × List Token)
  | (tree, .closing :: rest) => .ok (tree, rest)
  | _ => .error (.malformed .unclosed)

/-- A sum in parentheses, once the opening one has been taken. -/
def readEnclosed (below : Readers) : Reader := fun tokens =>
  match below.sum tokens with
  | .error e => .error e
  | .ok result => close result

/-- A word: a constant, or a function with its argument. -/
def readWord (below : Readers) (letters : String) : Reader := fun tokens =>
  match Constant.named? letters with
  | some name => .ok (.constant name, tokens)
  | none =>
    match Function.named? letters with
    | none => .error (.malformed (.unknownName letters))
    | some name =>
      match tokens with
      | .opening :: rest =>
        match readEnclosed below rest with
        | .error e => .error e
        | .ok (argument, rest) => .ok (.call name argument, rest)
      | _ => .error (.malformed (.callWithoutParentheses name))

/-- A number, the variable, a sum in parentheses (`readEnclosed`), or a constant or a call (`readWord`). -/
def readPrimary (below : Readers) : Reader
  | [] => .error (.malformed .endOfInput)
  | .number value :: rest => .ok (.number value, rest)
  | .variable :: rest => .ok (.variable, rest)
  | .opening :: rest => readEnclosed below rest
  | .word letters :: rest => readWord below letters rest
  | token :: _ => .error (.malformed (.unexpected token))

/-- A `readPrimary` with an exponent, if there is one. The exponent may carry a sign of its own. -/
def readPower (below : Readers) : Reader := fun tokens =>
  match readPrimary below tokens with
  | .error e => .error e
  | .ok (base, .operator '^' :: rest) =>
    match below.signed rest with
    | .error e => .error e
    | .ok (exponent, rest) => .ok (.binary '^' base exponent, rest)
  | .ok result => .ok result

/-- A power with the signs in front of it. A sign covers the whole power: `-2^2` is `-(2^2)`. -/
def readSigned (below : Readers) : Reader
  | .operator '-' :: rest =>
    match below.signed rest with
    | .error e => .error e
    | .ok (operand, rest) => .ok (.neg operand, rest)
  | .operator '+' :: rest => below.signed rest
  | tokens => readPower below tokens

/-- Signed operands (`readSigned`), multiplied and divided from left to right. -/
def readProduct (below : Readers) : Reader := Reader.chain productOperator? (readSigned below)

/-- Products (`readProduct`), added and subtracted from left to right. -/
def readSum (below : Readers) : Reader := Reader.chain sumOperator? (readProduct below)

/-- The readers where `levels` further levels of nesting are allowed, counting their own. -/
def Readers.allowing : (levels : Nat) → Readers
  | 0 => ⟨fun _ => .error (.malformed .tooDeep), fun _ => .error (.malformed .tooDeep)⟩
  | levels + 1 => ⟨readSum (allowing levels), readSigned (allowing levels)⟩

/-! ## Whole expressions -/

/-- The tree that a list of tokens is read as by `readSum`, all of them. -/
def Expr.ofTokens (tokens : List Token) : Except ExprError Expr :=
  if tokens = [] then .error (.malformed .empty)
  else if tokenLimit < tokens.length then .error (.malformed .tooManyTokens)
  else
    match readSum (Readers.allowing nestingLimit) tokens with
    | .error e => .error e
    | .ok (tree, []) => .ok tree
    | .ok (_, token :: _) => .error (.malformed (.trailing token))

/-- The tree of a text: `Expr.ofTokens` of its tokens. -/
def compile (input : String) : Except ExprError Expr :=
  match tokenize input with
  | .error e => .error e
  | .ok tokens => Expr.ofTokens tokens

theorem compile_eq_bind (input : String) : compile input = (tokenize input).bind Expr.ofTokens := by
  unfold compile
  cases tokenize input <;> rfl

end Calculator
