import Calculator.Expression.Vocabulary
import Calculator.Number.Shortest

/-!
# `Expression.Tree` — expressions as trees

## Contents

* `Expr` — the tree
* `Expr.text` — the tree in parenthesised form, operator first
* `Expr.mentionsVariable`, `Expr.height`
-/

namespace Calculator

/-- An expression. Parentheses and plus signs leave no trace; an implicit product is a product. An operator is
its sign and a name its letters, so that a tree can hold some that `eval` has no rule for. -/
inductive Expr where
  | number (value : Float)
  | constant (name : String)
  | variable
  | neg (operand : Expr)
  | binary (sign : Char) (left right : Expr)
  | call (name : String) (argument : Expr)
deriving Repr, DecidableEq

namespace Expr

/-- The tree with one pair of parentheses for each operation, the operation first. -/
def text : Expr → String
  | .number value => String.ofList (literalNumeral value)
  | .constant name => name
  | .variable => String.singleton variableName
  | .neg operand => "(neg " ++ operand.text ++ ")"
  | .binary sign left right =>
    "(" ++ String.singleton sign ++ " " ++ left.text ++ " " ++ right.text ++ ")"
  | .call name argument => "(" ++ name ++ " " ++ argument.text ++ ")"

/-- Whether the free variable occurs. -/
def mentionsVariable : Expr → Bool
  | .number _ | .constant _ => false
  | .variable => true
  | .neg operand => operand.mentionsVariable
  | .binary _ left right => left.mentionsVariable || right.mentionsVariable
  | .call _ argument => argument.mentionsVariable

/-- The number of nodes on the longest path down the tree. -/
def height : Expr → Nat
  | .number _ | .constant _ | .variable => 1
  | .neg operand => operand.height + 1
  | .binary _ left right => max left.height right.height + 1
  | .call _ argument => argument.height + 1

end Expr

end Calculator
