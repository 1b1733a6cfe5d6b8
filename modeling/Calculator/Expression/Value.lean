import Calculator.Expression.Reading

/-!
# `Expression.Value` — the value of an expression

Every value on the way to the result must be finite: the first one that is not, in the order left
operand, right operand, operation, is the error of the whole.

## Contents

* `Constant.value`, `Operator.apply`, `Function.apply`
* `Expr.eval`, `valueOf`, and their equations as sequences of steps that may fail
-/

namespace Calculator

/-- The circle's number, to the nearest double. -/
def Constant.pi : Float := Float.ofBits 0x400921FB54442D18

/-- Euler's number, to the nearest double. -/
def Constant.e : Float := Float.ofBits 0x4005BF0A8B145769

/-- The number that a name stands for; a name that is none of `Constant.names` is refused as `malformed`. -/
def Constant.value (name : String) : Except ExprError Float :=
  match name with
  | "pi" => .ok pi
  | "e" => .ok e
  | other => .error (.malformed (.unknownConstant other))

/-- Refuses a value that is not finite as an `overflow`. -/
def requireFinite (value : Float) : Except ExprError Float :=
  if value.isFinite then .ok value else .error (.overflow (.notFinite value))

/-- Applies the operator with a sign; any other sign is refused as `malformed`. A power that is not a number
has no real value; a zero divisor is refused before dividing. -/
def Operator.apply (sign : Char) (left right : Float) : Except ExprError Float :=
  match sign with
  | '+' => .ok (left + right)
  | '-' => .ok (left - right)
  | '*' => .ok (left * right)
  | '/' => if right == 0 then .error (.overflow .divisionByZero) else .ok (left / right)
  | '^' =>
    let result := Float.pow left right
    if result.isNaN then .error (.domain (.power left right)) else .ok result
  | other => .error (.malformed (.unknownOperator other))

/-- Applies the function with a name. Angles are in radians, `log` is the logarithm to base ten, and
`round` takes a half away from zero. -/
def Function.apply (name : String) (x : Float) : Except ExprError Float :=
  match name with
  | "sin" => .ok x.sin
  | "cos" => .ok x.cos
  | "tan" => .ok x.tan
  | "asin" => if -1 ≤ x ∧ x ≤ 1 then .ok x.asin else .error (.domain .asin)
  | "acos" => if -1 ≤ x ∧ x ≤ 1 then .ok x.acos else .error (.domain .acos)
  | "atan" => .ok x.atan
  | "sinh" => .ok x.sinh
  | "cosh" => .ok x.cosh
  | "tanh" => .ok x.tanh
  | "ln" => if x ≤ 0 then .error (.domain .ln) else .ok x.log
  | "log" => if x ≤ 0 then .error (.domain .log) else .ok x.log10
  | "exp" => .ok x.exp
  | "sqrt" => if x < 0 then .error (.domain .sqrt) else .ok x.sqrt
  | "abs" => .ok x.abs
  | "floor" => .ok (Binary64.floor x)
  | "ceil" => .ok (Binary64.ceiling x)
  | "round" => .ok (Binary64.round x)
  | other => .error (.malformed (.unknownFunction other))

/-- The value of an expression, where `x` is the value of the free variable, if it has one. -/
def Expr.eval (x : Option Float) : Expr → Except ExprError Float
  | .number value => requireFinite value
  | .constant name =>
    match Constant.value name with
    | .error e => .error e
    | .ok value => requireFinite value
  | .variable =>
    match x with
    | none => .error (.unbound variableName)
    | some value => requireFinite value
  | .neg operand =>
    match operand.eval x with
    | .error e => .error e
    | .ok value => requireFinite (-value)
  | .binary sign left right =>
    match left.eval x with
    | .error e => .error e
    | .ok leftValue =>
      match right.eval x with
      | .error e => .error e
      | .ok rightValue =>
        match Operator.apply sign leftValue rightValue with
        | .error e => .error e
        | .ok value => requireFinite value
  | .call name argument =>
    match argument.eval x with
    | .error e => .error e
    | .ok argumentValue =>
      match Function.apply name argumentValue with
      | .error e => .error e
      | .ok value => requireFinite value

theorem Expr.eval_constant (x : Option Float) (name : String) :
    (constant name).eval x = (Constant.value name).bind requireFinite := by
  rw [eval]
  cases Constant.value name <;> rfl

theorem Expr.eval_neg (x : Option Float) (operand : Expr) :
    (neg operand).eval x = (operand.eval x).bind fun value => requireFinite (-value) := by
  rw [eval]
  cases operand.eval x <;> rfl

theorem Expr.eval_binary (x : Option Float) (sign : Char) (left right : Expr) :
    (binary sign left right).eval x =
      (left.eval x).bind fun leftValue =>
        (right.eval x).bind fun rightValue =>
          (Operator.apply sign leftValue rightValue).bind requireFinite := by
  rw [eval]
  cases left.eval x with
  | error e => rfl
  | ok leftValue =>
      cases right.eval x with
      | error e => rfl
      | ok rightValue =>
          simp only [Except.bind]
          cases Operator.apply sign leftValue rightValue <;> rfl

theorem Expr.eval_call (x : Option Float) (name : String) (argument : Expr) :
    (call name argument).eval x =
      (argument.eval x).bind fun value => (Function.apply name value).bind requireFinite := by
  rw [eval]
  cases argument.eval x with
  | error e => rfl
  | ok value =>
      simp only [Except.bind]
      cases Function.apply name value <;> rfl

/-- The value of a text without the free variable: `Expr.eval` of its tree. -/
def valueOf (input : String) : Except ExprError Float :=
  match compile input with
  | .error e => .error e
  | .ok tree => tree.eval none

theorem valueOf_eq_bind (input : String) : valueOf input = (compile input).bind (Expr.eval none) := by
  unfold valueOf
  cases compile input <;> rfl

end Calculator
