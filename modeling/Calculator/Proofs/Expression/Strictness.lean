import Calculator.Proofs.Expression.Failure

/-!
# `Proofs.Expression.Strictness` — no bad value on the way is hidden

A tree is evaluated part by part: the operands from left to right, and then the operation itself. Each
part has a finite value, or it is the last part that is looked at. So a result stands for the whole way
to it: no part of the tree has overflowed, left its domain or missed the variable, not even where the
part would have made no difference, as in a product with zero or in the arctangent of an infinity. And a
failure has one place, the first part in this order which has no value although all of its operands have
one.

## Contents

* `Expr.subexpressions` — the parts of a tree in the order in which they get their values
* `Expr.HasValue`, `Expr.Raises` — a part with a value, and a part that is itself to blame
* `FirstRaises` — the first part without a value
* `Expr.eval_cases` — a tree has a value, as have all of its parts, or a first part is to blame
* `Expr.eval_strict` — what follows for values, failures and the variable
-/

namespace Calculator

/-- The parts of a tree, each occurrence by itself, in the order in which they get their values: those of
the operands from left to right, and then the whole. -/
def Expr.subexpressions : Expr → List Expr
  | .number value => [.number value]
  | .constant name => [.constant name]
  | .variable => [.variable]
  | .neg operand => operand.subexpressions ++ [.neg operand]
  | .binary sign left right =>
    left.subexpressions ++ (right.subexpressions ++ [.binary sign left right])
  | .call name argument => argument.subexpressions ++ [.call name argument]

/-- A part has a finite value, where the variable has the value `x`, if any. -/
def Expr.HasValue (x : Option Float) (part : Expr) : Prop :=
  ∃ value, part.eval x = .ok value ∧ value.isFinite = true

/-- **A part is itself to blame** for an error: its operands, if it has any, have the values that `eval` asks
for, and it has none. -/
inductive Expr.Raises (x : Option Float) : Expr → ExprError → Prop where
  | number {value : Float} (infinite : value.isFinite = false) :
      Raises x (.number value) (.overflow (.notFinite value))
  | constantRefused {name : String} {e : ExprError} (refused : Constant.value name = .error e) :
      Raises x (.constant name) e
  | constant {name : String} {value : Float} (named : Constant.value name = .ok value)
      (infinite : value.isFinite = false) :
      Raises x (.constant name) (.overflow (.notFinite value))
  | missing (unbound : x = none) : Raises x .variable (.unbound variableName)
  | variable {value : Float} (bound : x = some value) (infinite : value.isFinite = false) :
      Raises x .variable (.overflow (.notFinite value))
  | neg {operand : Expr} {value : Float} (evaluated : operand.eval x = .ok value)
      (infinite : (-value).isFinite = false) :
      Raises x (.neg operand) (.overflow (.notFinite (-value)))
  | binaryRefused {sign : Char} {left right : Expr} {leftValue rightValue : Float} {e : ExprError}
      (evaluatedLeft : left.eval x = .ok leftValue) (evaluatedRight : right.eval x = .ok rightValue)
      (refused : Operator.apply sign leftValue rightValue = .error e) :
      Raises x (.binary sign left right) e
  | binary {sign : Char} {left right : Expr} {leftValue rightValue value : Float}
      (evaluatedLeft : left.eval x = .ok leftValue) (evaluatedRight : right.eval x = .ok rightValue)
      (applied : Operator.apply sign leftValue rightValue = .ok value) (infinite : value.isFinite = false) :
      Raises x (.binary sign left right) (.overflow (.notFinite value))
  | callRefused {name : String} {argument : Expr} {argumentValue : Float} {e : ExprError}
      (evaluated : argument.eval x = .ok argumentValue)
      (refused : Function.apply name argumentValue = .error e) :
      Raises x (.call name argument) e
  | call {name : String} {argument : Expr} {argumentValue value : Float}
      (evaluated : argument.eval x = .ok argumentValue)
      (applied : Function.apply name argumentValue = .ok value) (infinite : value.isFinite = false) :
      Raises x (.call name argument) (.overflow (.notFinite value))

/-- **The first part without a value is to blame** for the error (`Raises`), and all parts before it have
values (`HasValue`). -/
inductive FirstRaises (x : Option Float) : List Expr → ExprError → Prop where
  | here {part : Expr} {after : List Expr} {e : ExprError} (raises : part.Raises x e) :
      FirstRaises x (part :: after) e
  | later {part : Expr} {after : List Expr} {e : ExprError} (value : part.HasValue x)
      (first : FirstRaises x after e) :
      FirstRaises x (part :: after) e

section

variable {x : Option Float} {tree part : Expr} {parts others : List Expr} {e : ExprError}
  {value : Float}

/-! ## One part -/

/-- A value is let through if it is finite, and is the error otherwise. -/
theorem requireFinite_cases (value : Float) :
    value.isFinite = true ∧ requireFinite value = .ok value ∨
      value.isFinite = false ∧ requireFinite value = .error (.overflow (.notFinite value)) := by
  unfold requireFinite
  cases hfinite : value.isFinite with
  | true => exact .inl ⟨rfl, rfl⟩
  | false => exact .inr ⟨rfl, rfl⟩

theorem requireFinite_of_not_isFinite (h : value.isFinite = false) :
    requireFinite value = .error (.overflow (.notFinite value)) := by
  rcases requireFinite_cases value with ⟨hfinite, -⟩ | ⟨-, hrefused⟩
  · rw [h] at hfinite
    contradiction
  · exact hrefused

/-- A part that is to blame has no value, and the error is its own. -/
theorem Expr.Raises.eval (h : part.Raises x e) : part.eval x = .error e := by
  cases h with
  | number infinite => exact requireFinite_of_not_isFinite infinite
  | constantRefused refused => rw [eval_constant, refused, Except.bind]
  | constant named infinite =>
      rw [eval_constant, named]
      exact requireFinite_of_not_isFinite infinite
  | missing unbound =>
      subst unbound
      rfl
  | «variable» bound infinite =>
      subst bound
      exact requireFinite_of_not_isFinite infinite
  | neg evaluated infinite =>
      rw [eval_neg, evaluated]
      exact requireFinite_of_not_isFinite infinite
  | binaryRefused evaluatedLeft evaluatedRight refused =>
      rw [eval_binary, evaluatedLeft, Except.bind, evaluatedRight, Except.bind, refused, Except.bind]
  | binary evaluatedLeft evaluatedRight applied infinite =>
      rw [eval_binary, evaluatedLeft, Except.bind, evaluatedRight, Except.bind, applied]
      exact requireFinite_of_not_isFinite infinite
  | callRefused evaluated refused => rw [eval_call, evaluated, Except.bind, refused, Except.bind]
  | call evaluated applied infinite =>
      rw [eval_call, evaluated, Except.bind, applied]
      exact requireFinite_of_not_isFinite infinite

theorem Expr.Raises.not_hasValue (h : part.Raises x e) : ¬part.HasValue x := by
  rintro ⟨value, hvalue, -⟩
  rw [h.eval] at hvalue
  contradiction

/-! ## The first part without a value -/

/-- The parts behind the one to blame do not matter. -/
theorem FirstRaises.append_right (h : FirstRaises x parts e) (others : List Expr) :
    FirstRaises x (parts ++ others) e := by
  induction h with
  | here raises => exact .here raises
  | later value first ih => exact .later value ih

/-- The parts in front of the one to blame matter only in that they have values. -/
theorem FirstRaises.append_left (hothers : ∀ earlier ∈ others, earlier.HasValue x)
    (h : FirstRaises x parts e) : FirstRaises x (others ++ parts) e := by
  induction others with
  | nil => exact h
  | cons earlier rest ih =>
      obtain ⟨hearlier, hrest⟩ := List.forall_mem_cons.mp hothers
      exact .later hearlier (ih hrest)

/-- A list with a part to blame has a part without a value. -/
theorem FirstRaises.not_all (h : FirstRaises x parts e) : ¬∀ part ∈ parts, part.HasValue x := by
  induction h with
  | here raises => exact fun hall => raises.not_hasValue (hall _ List.mem_cons_self)
  | later value first ih => exact fun hall => ih (List.forall_mem_cons.mp hall).2

/-- There is only one first part to blame, and it has only one error. -/
theorem FirstRaises.unique {e' : ExprError} (h : FirstRaises x parts e)
    (h' : FirstRaises x parts e') : e = e' := by
  induction h with
  | here raises =>
      cases h' with
      | here raises' => exact Except.error.inj (raises.eval.symm.trans raises'.eval)
      | later value' first' => exact absurd value' raises.not_hasValue
  | later value first ih =>
      cases h' with
      | here raises' => exact absurd value raises'.not_hasValue
      | later value' first' => exact ih first'

/-! ## A whole tree -/

/-- What becomes of a tree: it has a value, as have all of its parts, or the first part without one is
to blame. -/
def Expr.Settled (x : Option Float) (tree : Expr) : Prop :=
  (∃ value, tree.eval x = .ok value ∧ value.isFinite = true ∧
    ∀ part ∈ tree.subexpressions, part.HasValue x) ∨
  ∃ e, tree.eval x = .error e ∧ FirstRaises x tree.subexpressions e

/-- The operation at the top of a tree, with the value that it computes from its operands: the parts of
these have values already. -/
theorem Expr.settled_of_finite (hparts : tree.subexpressions = others ++ [tree])
    (hothers : ∀ part ∈ others, part.HasValue x) (heval : tree.eval x = requireFinite value)
    (hraises : value.isFinite = false → tree.Raises x (.overflow (.notFinite value))) :
    tree.Settled x := by
  rcases requireFinite_cases value with ⟨hfinite, hlet⟩ | ⟨hinfinite, hrefused⟩
  · refine .inl ⟨value, heval.trans hlet, hfinite, ?_⟩
    intro part hpart
    rw [hparts] at hpart
    rcases List.mem_append.mp hpart with hother | hself
    · exact hothers part hother
    · obtain rfl := List.mem_singleton.mp hself
      exact ⟨value, heval.trans hlet, hfinite⟩
  · refine .inr ⟨_, heval.trans hrefused, ?_⟩
    rw [hparts]
    exact FirstRaises.append_left hothers (.here (hraises hinfinite))

/-- The operation at the top of a tree, when it is refused. -/
theorem Expr.settled_of_raises (hparts : tree.subexpressions = others ++ [tree])
    (hothers : ∀ part ∈ others, part.HasValue x) (hraises : tree.Raises x e) : tree.Settled x := by
  refine .inr ⟨e, hraises.eval, ?_⟩
  rw [hparts]
  exact FirstRaises.append_left hothers (.here hraises)

/-- **The first part without a value decides** (`Settled`): by induction over the tree, where each case
follows the order in which `eval` looks at the operands. -/
theorem Expr.eval_cases (x : Option Float) (tree : Expr) : tree.Settled x := by
  induction tree with
  | number value =>
      exact settled_of_finite (List.nil_append _).symm (by simp) rfl .number
  | constant name =>
      have hparts : (constant name).subexpressions = [] ++ [constant name] := rfl
      have hconstant := eval_constant x name
      cases hvalue : Constant.value name with
      | error e => exact settled_of_raises hparts (by simp) (.constantRefused hvalue)
      | ok value =>
          rw [hvalue] at hconstant
          exact settled_of_finite hparts (by simp) hconstant (.constant hvalue)
  | «variable» =>
      have hparts : Expr.variable.subexpressions = [] ++ [.variable] := rfl
      cases x with
      | none => exact settled_of_raises hparts (by simp) (.missing rfl)
      | some value => exact settled_of_finite hparts (by simp) rfl (.variable rfl)
  | neg operand ih =>
      have hparts : (neg operand).subexpressions = operand.subexpressions ++ [neg operand] := rfl
      rcases ih with ⟨value, heval, -, hvalues⟩ | ⟨e, heval, hfirst⟩
      · have hneg : (neg operand).eval x = requireFinite (-value) := by
          rw [eval_neg, heval, Except.bind]
        exact settled_of_finite hparts hvalues hneg (.neg heval)
      · refine .inr ⟨e, by rw [eval_neg, heval, Except.bind], ?_⟩
        exact hparts ▸ hfirst.append_right _
  | binary sign left right ihl ihr =>
      have hparts : (binary sign left right).subexpressions =
          left.subexpressions ++ (right.subexpressions ++ [binary sign left right]) := rfl
      rcases ihl with ⟨leftValue, hleft, -, hleftValues⟩ | ⟨e, hleft, hfirst⟩
      · rcases ihr with ⟨rightValue, hright, -, hrightValues⟩ | ⟨e, hright, hfirst⟩
        · -- both operands have values, and it depends on the operation
          have hvalues : ∀ part ∈ left.subexpressions ++ right.subexpressions, part.HasValue x := by
            intro part hpart
            rcases List.mem_append.mp hpart with hl | hr
            · exact hleftValues part hl
            · exact hrightValues part hr
          have hparts' := hparts.trans (List.append_assoc ..).symm
          have hop : (binary sign left right).eval x =
              (Operator.apply sign leftValue rightValue).bind requireFinite := by
            rw [eval_binary, hleft, Except.bind, hright, Except.bind]
          cases happlied : Operator.apply sign leftValue rightValue with
          | error e =>
              exact settled_of_raises hparts' hvalues (.binaryRefused hleft hright happlied)
          | ok value =>
              rw [happlied] at hop
              exact settled_of_finite hparts' hvalues hop (.binary hleft hright happlied)
        · refine .inr ⟨e, ?_, ?_⟩
          · rw [eval_binary, hleft, Except.bind, hright, Except.bind]
          · exact hparts ▸ (hfirst.append_right _).append_left hleftValues
      · -- the right operand is not looked at
        refine .inr ⟨e, by rw [eval_binary, hleft, Except.bind], ?_⟩
        exact hparts ▸ hfirst.append_right _
  | call name argument ih =>
      have hparts : (call name argument).subexpressions =
          argument.subexpressions ++ [call name argument] := rfl
      rcases ih with ⟨argumentValue, heval, -, hvalues⟩ | ⟨e, heval, hfirst⟩
      · have hcall : (call name argument).eval x =
            (Function.apply name argumentValue).bind requireFinite := by
          rw [eval_call, heval, Except.bind]
        cases happlied : Function.apply name argumentValue with
        | error e => exact settled_of_raises hparts hvalues (.callRefused heval happlied)
        | ok value =>
            rw [happlied] at hcall
            exact settled_of_finite hparts hvalues hcall (.call heval happlied)
      · refine .inr ⟨e, by rw [eval_call, heval, Except.bind], ?_⟩
        exact hparts ▸ hfirst.append_right _

/-! ## The variable -/

theorem Expr.variable_mem_subexpressions_iff :
    .variable ∈ tree.subexpressions ↔ tree.mentionsVariable = true := by
  induction tree with
  | number value => simp [subexpressions, mentionsVariable]
  | constant name => simp [subexpressions, mentionsVariable]
  | «variable» => simp [subexpressions, mentionsVariable]
  | neg operand ih => simp [subexpressions, mentionsVariable, ih]
  | binary sign left right ihl ihr => simp [subexpressions, mentionsVariable, ihl, ihr]
  | call name argument ih => simp [subexpressions, mentionsVariable, ih]

/-- The variable itself has a value only if it is given a finite one. -/
theorem Expr.hasValue_variable_iff :
    Expr.variable.HasValue x ↔ ∃ value, x = some value ∧ value.isFinite = true := by
  constructor
  · rintro ⟨value, heval, hfinite⟩
    cases x with
    | none => exact absurd heval (by simp [Expr.eval])
    | some given =>
        have hgiven : requireFinite given = .ok value := heval
        rcases requireFinite_cases given with ⟨hfinite', -⟩ | ⟨-, hrefused⟩
        · exact ⟨given, rfl, hfinite'⟩
        · exact absurd (hrefused.symm.trans hgiven) (by simp)
  · rintro ⟨value, rfl, hfinite⟩
    exact ⟨value, by rw [Expr.eval, requireFinite, if_pos hfinite], hfinite⟩

/-- A tree without the variable does not depend on it. -/
theorem Expr.eval_congr_of_not_mentions (h : tree.mentionsVariable = false) (y : Option Float) :
    tree.eval x = tree.eval y := by
  induction tree with
  | number value => rfl
  | constant name => rfl
  | «variable» => exact absurd h (by simp [mentionsVariable])
  | neg operand ih => rw [eval_neg, eval_neg, ih h]
  | binary sign left right ihl ihr =>
      obtain ⟨hl, hr⟩ := Bool.or_eq_false_iff.mp h
      rw [eval_binary, eval_binary, ihl hl, ihr hr]
  | call name argument ih => rw [eval_call, eval_call, ih h]

/-- What is not a number and what is infinite is not finite. -/
theorem not_isFinite_of_special (h : value.isNaN = true ∨ value.isInf = true) :
    value.isFinite = false := by
  have hnan : value.isNaN = value.toModel.unpack.isNaN := rfl
  have hinf : value.isInf = value.toModel.unpack.isInf := rfl
  rw [hnan, hinf] at h
  show value.toModel.unpack.isFinite = false
  cases hunpacked : value.toModel.unpack with
  | notANumber => rfl
  | infinity sign => rfl
  | zero sign =>
      rw [hunpacked] at h
      rcases h with hnot | hnot <;> exact absurd hnot Bool.false_ne_true
  | finite sign mantissa exponent positive =>
      rw [hunpacked] at h
      rcases h with hnot | hnot <;> exact absurd hnot Bool.false_ne_true

/-! ## Evaluation is strict -/

/-- **Evaluation hides nothing.** If `tree.eval x` is a value, it is finite, and so is that of every part of
the tree (`HasValue`). It is an error exactly if the first of the `subexpressions` without a value, in the
order in which they get theirs, raises that error (`FirstRaises`). So a tree that mentions the variable has no
value unless `x` is a finite one, and the result of a tree that does not is the same whatever `x` is. -/
theorem Expr.eval_strict (tree : Expr) (x : Option Float) :
    (∀ value, tree.eval x = .ok value →
      value.isFinite = true ∧ ∀ part ∈ tree.subexpressions, part.HasValue x) ∧
    (∀ e, tree.eval x = .error e ↔ FirstRaises x tree.subexpressions e) ∧
    (tree.mentionsVariable = true →
      (x = none ∨ ∃ given, x = some given ∧ (given.isNaN = true ∨ given.isInf = true)) →
      ∀ value, tree.eval x ≠ .ok value) ∧
    (tree.mentionsVariable = false → ∀ y, tree.eval x = tree.eval y) := by
  have hvalues : ∀ value, tree.eval x = .ok value →
      value.isFinite = true ∧ ∀ part ∈ tree.subexpressions, part.HasValue x := by
    intro value heval
    rcases tree.eval_cases x with ⟨value', heval', hfinite, hparts⟩ | ⟨e, heval', -⟩
    · obtain rfl := Except.ok.inj (heval'.symm.trans heval)
      exact ⟨hfinite, hparts⟩
    · exact absurd (heval'.symm.trans heval) (by simp)
  refine ⟨hvalues, ?_, ?_, eval_congr_of_not_mentions⟩
  · intro e
    constructor
    · intro heval
      rcases tree.eval_cases x with ⟨value, heval', -⟩ | ⟨e', heval', hfirst⟩
      · exact absurd (heval'.symm.trans heval) (by simp)
      · obtain rfl := Except.error.inj (heval'.symm.trans heval)
        exact hfirst
    · intro hfirst
      rcases tree.eval_cases x with ⟨value, -, -, hparts⟩ | ⟨e', heval', hfirst'⟩
      · exact absurd hparts hfirst.not_all
      · rw [heval', hfirst.unique hfirst']
  · intro hmentions hmissing value heval
    have hvariable := (hvalues value heval).2 .variable (variable_mem_subexpressions_iff.mpr hmentions)
    obtain ⟨given, rfl, hfinite⟩ := hasValue_variable_iff.mp hvariable
    rcases hmissing with hnone | ⟨given', hgiven, hspecial⟩
    · contradiction
    · obtain rfl := Option.some.inj hgiven
      rw [not_isFinite_of_special hspecial] at hfinite
      contradiction

/-- A product with zero that fails nevertheless, a sum with a value, one without the variable's value, and
one without the variable. -/
theorem Expr.eval_strict_quotient :
    let quotient : Expr := .binary '/' (.number 1) (.number 0)
    let product : Expr := .binary '*' .variable quotient
    let sum : Expr := .binary '+' .variable (.number 1)
    (product.eval (some 0) = .error (.overflow .divisionByZero) ∧
      FirstRaises (some 0) product.subexpressions (.overflow .divisionByZero)) ∧
    (sum.eval (some 2) = .ok 3 ∧ ∀ part ∈ sum.subexpressions, part.HasValue (some 2)) ∧
    (sum.mentionsVariable = true ∧ ∀ value, sum.eval none ≠ .ok value) ∧
    (quotient.mentionsVariable = false ∧ quotient.eval none = quotient.eval (some 2)) := by
  intro quotient product sum
  have hproduct : product.eval (some 0) = .error (.overflow .divisionByZero) := by decide +kernel
  have hsum : sum.eval (some 2) = .ok 3 := by decide +kernel
  refine ⟨⟨hproduct, ?_⟩, ⟨hsum, ?_⟩, ⟨rfl, ?_⟩, ⟨rfl, ?_⟩⟩
  · exact ((product.eval_strict (some 0)).2.1 _).mp hproduct
  · exact ((sum.eval_strict (some 2)).1 3 hsum).2
  · exact (sum.eval_strict none).2.2.1 rfl (.inl rfl)
  · exact (quotient.eval_strict none).2.2.2 rfl (some 2)

end

end Calculator
