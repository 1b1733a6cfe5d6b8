import Calculator.Expression.Vocabulary
import Calculator.Number.Shortest

/-!
# `Expression.Token` — the words of an expression and what can be wrong with one

## Contents

* `Token`, `Token.text`, `Token.description` — the units that an expression is built from
* `Malformed`, `OutsideDomain`, `Overflow`, `ExprError` — why an expression has no value, with the
  text that says so
-/

namespace Calculator

/-- A unit of an expression. An `operator` is the sign that it is written with, and a `word` keeps its
letters, known or not: whether they may stand where they stand is decided when the tokens are read as a
tree. -/
inductive Token where
  | number (value : Float)
  | operator (sign : Char)
  | word (letters : String)
  | variable
  | opening
  | closing
deriving Repr, DecidableEq

namespace Token

/-- The token in the canonical form of an expression. -/
def text : Token → String
  | .number value => String.ofList (plainNumeral value)
  | .operator sign => String.singleton sign
  | .word letters => letters
  | .variable => String.singleton variableName
  | .opening => "("
  | .closing => ")"

/-- The token as messages show it: its kind, with its content in parentheses. -/
def description : Token → String
  | .number value => "Number(" ++ String.ofList (literalNumeral value) ++ ")"
  | .operator sign => "Op('" ++ String.singleton sign ++ "')"
  | .word letters => "Ident(\"" ++ letters ++ "\")"
  | .variable => "Variable"
  | .opening => "LParen"
  | .closing => "RParen"

end Token

/-- Nesting of parentheses, calls, signs and exponents that an expression may not exceed. -/
def nestingLimit : Nat := 100

/-- Number of tokens that an expression may not exceed. -/
def tokenLimit : Nat := 1000

/-! ## Errors -/

/-- Why a text is not an expression, or an `Expr` not one of an expression. -/
inductive Malformed where
  | unknownCharacter (character : Char)
  | invalidNumber (text : List Char)
  | empty
  | tooManyTokens
  | tooDeep
  | trailing (token : Token)
  | endOfInput
  | unexpected (token : Token)
  | unclosed
  | callWithoutParentheses (name : String)
  | unknownName (word : String)
  | unknownConstant (name : String)
  | unknownOperator (sign : Char)
  | unknownFunction (name : String)
deriving Repr, DecidableEq

/-- Which operation was asked for a value where it has none. -/
inductive OutsideDomain where
  | power (base exponent : Float)
  | asin | acos | ln | log | sqrt
deriving Repr, DecidableEq

/-- Which operation left the finite numbers. -/
inductive Overflow where
  | divisionByZero
  | notFinite (value : Float)
deriving Repr, DecidableEq

/-- Why an expression has no value: it is `malformed`, an operand is outside the `domain` of its operation, a
number is an `overflow`, or the variable is `unbound`. -/
inductive ExprError where
  | malformed (cause : Malformed)
  | domain (cause : OutsideDomain)
  | overflow (cause : Overflow)
  | unbound (name : Char)
deriving Repr, DecidableEq

/-- The cause in words. -/
def Malformed.message : Malformed → String
  | .unknownCharacter character => "unknown character '" ++ String.singleton character ++ "'"
  | .invalidNumber text => "invalid number '" ++ String.ofList text ++ "'"
  | .empty => "empty expression"
  | .tooManyTokens => "expression longer than " ++ toString tokenLimit ++ " tokens"
  | .tooDeep => "expression nested deeper than " ++ toString nestingLimit ++ " levels"
  | .trailing token => "unexpected " ++ token.description ++ " at end of expression"
  | .endOfInput => "unexpected end of input"
  | .unexpected token => "unexpected " ++ token.description
  | .unclosed => "missing closing parenthesis"
  | .callWithoutParentheses name => "function '" ++ name ++ "' requires parentheses"
  | .unknownName word => "unknown name '" ++ word ++ "'"
  | .unknownConstant name => "unknown constant '" ++ name ++ "'"
  | .unknownOperator sign => "unknown operator '" ++ String.singleton sign ++ "'"
  | .unknownFunction name => "unknown function '" ++ name ++ "'"

/-- The cause in words. -/
def OutsideDomain.message : OutsideDomain → String
  | .power base exponent =>
    String.ofList (plainNumeral base) ++ " ^ " ++ String.ofList (plainNumeral exponent)
      ++ " has no real value"
  | .asin => "asin domain: [-1, 1]"
  | .acos => "acos domain: [-1, 1]"
  | .ln => "ln domain: positive numbers"
  | .log => "log domain: positive numbers"
  | .sqrt => "sqrt domain: non-negative numbers"

/-- The cause in words. -/
def Overflow.message : Overflow → String
  | .divisionByZero => "division by zero"
  | .notFinite value => "non-finite result " ++ String.ofList (plainNumeral value)

/-- The whole message: the kind of error and its cause. -/
def ExprError.message : ExprError → String
  | .malformed cause => "Syntax error: " ++ cause.message
  | .domain cause => "Domain error: " ++ cause.message
  | .overflow cause => "Overflow: " ++ cause.message
  | .unbound name => "Unbound variable '" ++ String.singleton name ++ "'"

end Calculator
