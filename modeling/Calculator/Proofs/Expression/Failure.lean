import Calculator.Expression.Outcome
import Calculator.Proofs.Expression.Implemented
import Mathlib.Control.Monad.Basic

/-!
# `Proofs.Expression.Failure` — why an expression has no value

There are two ways to have no value. A text may be malformed, and then it is so before anything is
calculated; or its tree may fail while it is evaluated, and then it is not called malformed, since every
operator, constant and function that comes through `compile` is one that the interpreter has a rule for
(`compile_implemented`). A variable is missing only if none was given and the text mentions one, and in
such a text it is always missed or something else fails first. So whoever asks beforehand whether a text
mentions the variable knows what the evaluation can and cannot say about it.

## Contents

* `Expr.Failure` — what can go wrong in an evaluation
* `Operator.apply_failure`, `Function.apply_failure`, `Expr.failure_of_eval` — nothing else goes wrong
* `Expr.eval_none_of_mentions` — without a value for the variable there is none for the tree
* `compile_malformed`, `valueOf_error_cases` — texts that are not read, and texts without a value
-/

namespace Calculator

/-- **What can go wrong in an evaluation** where the variable has the value `x`, if any. -/
inductive Expr.Failure (x : Option Float) (tree : Expr) : ExprError → Prop where
  | domain (cause : OutsideDomain) : Failure x tree (.domain cause)
  | overflow (cause : Overflow) : Failure x tree (.overflow cause)
  | unbound (missing : x = none) (mentions : tree.mentionsVariable = true) :
      Failure x tree (.unbound variableName)

section

variable {x : Option Float} {tree whole : Expr} {e : ExprError} {value : Float} {input : String}
  {tokens : List Token}

/-- A sequence of two steps fails in the first one or in the second one. -/
theorem bind_error_cases {α β : Type} {first : Except ExprError α} {next : α → Except ExprError β}
    (h : first.bind next = .error e) :
    first = .error e ∨ ∃ value, first = .ok value ∧ next value = .error e := by
  cases first with
  | error e' =>
      injection h with h
      exact .inl (h ▸ rfl)
  | ok value => exact .inr ⟨value, rfl, h⟩

/-- What goes wrong in a part goes wrong in the whole. -/
theorem Expr.Failure.of_part (h : Failure x tree e)
    (hpart : tree.mentionsVariable = true → whole.mentionsVariable = true) : Failure x whole e := by
  cases h with
  | domain cause => exact .domain cause
  | overflow cause => exact .overflow cause
  | unbound missing mentions => exact .unbound missing (hpart mentions)

/-! ## Operations -/

theorem requireFinite_failure (h : requireFinite value = .error e) : Expr.Failure x tree e := by
  unfold requireFinite at h
  rw [← ite_not] at h
  exact refusal_of_guard h ▸ .overflow (.notFinite value)

theorem Operator.apply_failure {sign : Char} {left right : Float} (h : Operator.Implemented sign)
    (hrefused : apply sign left right = .error e) : Expr.Failure x tree e := by
  rcases refusal_of_mem (implemented_iff.mp h) hrefused with rfl | rfl
  · exact .overflow .divisionByZero
  · exact .domain (.power left right)

theorem Function.apply_failure {name : String} {argument : Float} (h : Function.Implemented name)
    (hrefused : apply name argument = .error e) : Expr.Failure x tree e := by
  obtain ⟨cause, rfl⟩ := refusal_of_mem (implemented_iff.mp h) hrefused
  exact .domain cause

/-! ## Trees -/

/-- **Nothing else goes wrong** in a tree that is `Implemented`: the first error on the way to the value is
that of `eval`, and each is a `Failure`. -/
theorem Expr.failure_of_eval (himplemented : tree.Implemented) (h : tree.eval x = .error e) :
    Failure x tree e := by
  induction tree with
  | number value => exact requireFinite_failure h
  | constant name =>
      obtain ⟨value, hvalue⟩ := himplemented
      rw [eval_constant, hvalue] at h
      exact requireFinite_failure h
  | «variable» =>
      cases x with
      | none =>
          injection h with h
          exact h ▸ .unbound rfl rfl
      | some value => exact requireFinite_failure h
  | neg operand ih =>
      rw [eval_neg] at h
      rcases bind_error_cases h with h | ⟨value, -, h⟩
      · exact (ih himplemented h).of_part id
      · exact requireFinite_failure h
  | binary sign left right ihl ihr =>
      obtain ⟨hsign, hleft, hright⟩ := himplemented
      rw [eval_binary] at h
      rcases bind_error_cases h with h | ⟨leftValue, -, h⟩
      · exact (ihl hleft h).of_part fun hm => by simp [mentionsVariable, hm]
      rcases bind_error_cases h with h | ⟨rightValue, -, h⟩
      · exact (ihr hright h).of_part fun hm => by simp [mentionsVariable, hm]
      rcases bind_error_cases h with h | ⟨value, -, h⟩
      · exact Operator.apply_failure hsign h
      · exact requireFinite_failure h
  | call name argument ih =>
      obtain ⟨hname, hargument⟩ := himplemented
      rw [eval_call] at h
      rcases bind_error_cases h with h | ⟨argumentValue, -, h⟩
      · exact (ih hargument h).of_part id
      rcases bind_error_cases h with h | ⟨value, -, h⟩
      · exact Function.apply_failure hname h
      · exact requireFinite_failure h

theorem Expr.eval_ne_malformed (h : tree.Implemented) (x : Option Float) (cause : Malformed) :
    tree.eval x ≠ .error (.malformed cause) :=
  fun hmalformed => nomatch failure_of_eval h hmalformed

/-- A tree that no text is read as, with a name that is no constant's. -/
example : (Expr.neg (.constant "tau")).eval none = .error (.malformed (.unknownConstant "tau")) := rfl

/-- Without a value for the variable, a tree that mentions it has none. -/
theorem Expr.eval_none_of_mentions (h : tree.mentionsVariable = true) :
    ∃ e, tree.eval none = .error e := by
  induction tree with
  | number value => exact absurd h (by simp [mentionsVariable])
  | constant name => exact absurd h (by simp [mentionsVariable])
  | «variable» => exact ⟨_, rfl⟩
  | neg operand ih =>
      obtain ⟨e, he⟩ := ih h
      exact ⟨e, by rw [eval_neg, he]; rfl⟩
  | binary sign left right ihl ihr =>
      rw [eval_binary]
      cases hleft : left.eval none with
      | error e => exact ⟨e, rfl⟩
      | ok leftValue =>
          -- the left operand has a value, so the variable is in the right one
          rcases Bool.or_eq_true _ _ ▸ h with hl | hr
          · obtain ⟨e, he⟩ := ihl hl
            exact absurd (hleft.symm.trans he) (by simp)
          · obtain ⟨e, he⟩ := ihr hr
            exact ⟨e, by rw [he]; rfl⟩
  | call name argument ih =>
      obtain ⟨e, he⟩ := ih h
      exact ⟨e, by rw [eval_call, he]; rfl⟩

/-! ## Texts -/

theorem Token.ofLexeme_malformed {lexeme : Lexeme} (h : ofLexeme lexeme = .error e) :
    ∃ cause, e = .malformed cause := by
  cases lexeme with
  | numeral text =>
      simp only [ofLexeme] at h
      split at h
      · exact absurd h (by simp)
      · injection h with h
        exact ⟨_, h.symm⟩
  | word letters => exact absurd h (by simp [ofLexeme])
  | symbol character =>
      simp only [ofLexeme] at h
      split at h
      · exact absurd h (by simp)
      · injection h with h
        exact ⟨_, h.symm⟩

theorem Token.ofLexemes_malformed {lexemes : List Lexeme} (h : ofLexemes lexemes = .error e) :
    ∃ cause, e = .malformed cause := by
  obtain ⟨before, lexeme, after, -, -, hlexeme⟩ := ofLexemes_eq_error_iff.mp h
  exact ofLexeme_malformed hlexeme

theorem compile_malformed (h : compile input = .error e) : ∃ cause, e = .malformed cause := by
  rw [compile_eq_bind] at h
  rcases bind_error_cases h with h | ⟨tokens, -, h⟩
  · exact Token.ofLexemes_malformed h
  · exact Expr.ofTokens_malformed h

/-- A text without a value cannot be read, or its tree fails. -/
theorem valueOf_error_cases (h : valueOf input = .error e) :
    compile input = .error e ∨ ∃ tree, compile input = .ok tree ∧ tree.eval none = .error e := by
  rw [valueOf_eq_bind] at h
  exact bind_error_cases h

theorem valueOf_of_compile (h : compile input = .ok tree) : valueOf input = tree.eval none := by
  rw [valueOf_eq_bind, h]
  rfl

theorem valueOf_of_compile_error (h : compile input = .error e) : valueOf input = .error e := by
  rw [valueOf_eq_bind, h]
  rfl

/-- The variable is missed only where it has no value and the text mentions it. -/
theorem unbound_of_eval {name : Char} (hcompile : compile input = .ok tree)
    (h : tree.eval x = .error (.unbound name)) : x = none ∧ mentionsVariable input = true := by
  cases Expr.failure_of_eval (compile_implemented hcompile) h with
  | unbound missing mentions => exact ⟨missing, mentionsVariable_of_compile hcompile ▸ mentions⟩

/-- **Failures are told apart.** If `compile` reads the text as `tree`, then `tree` is `Expr.Implemented` and so
are the tokens of the text: `Constant.value` has a number for every constant, and neither `Operator.apply` nor
`Function.apply` ever calls an operator or a function of it malformed. The atoms of the tree are those of
the tokens, so that `tree.mentionsVariable` and `mentionsVariable input` are the same. `tree.eval` never
fails with `.malformed`, and with `.unbound` only if it is given no value and the text mentions the variable.

Hence `valueOf` fails with `.malformed` exactly if `compile` fails; `evaluate` of a text that does not mention
the variable never fails with `.unbound`; and `valueOf` of a text that mentions it never has a value. -/
theorem failures_told_apart (input : String) :
    (∀ tree, compile input = .ok tree →
      tree.Implemented ∧
      (∃ tokens, tokenize input = .ok tokens ∧ tokens.filter Token.isAtom = tree.atoms ∧
        (∀ letters, .word letters ∈ tokens → isName letters = true) ∧
        ∀ token ∈ tokens, token.Implemented) ∧
      (tree.mentionsVariable = true ↔ mentionsVariable input = true) ∧
      (∀ x cause, tree.eval x ≠ .error (.malformed cause)) ∧
      (∀ x name, tree.eval x = .error (.unbound name) →
        x = none ∧ mentionsVariable input = true)) ∧
    ((∃ cause, valueOf input = .error (.malformed cause)) ↔ ∃ e, compile input = .error e) ∧
    (mentionsVariable input = false → evaluate input = .error →
      ∃ e, valueOf input = .error e ∧ ∀ name, e ≠ .unbound name) ∧
    (mentionsVariable input = true → ∀ value, valueOf input ≠ .ok value) := by
  refine ⟨fun tree hcompile => ?_, ⟨?_, ?_⟩, ?_, ?_⟩
  · have himplemented := compile_implemented hcompile
    refine ⟨himplemented, ?_, ?_, Expr.eval_ne_malformed himplemented, ?_⟩
    · obtain ⟨tokens, nesting, htokens, hd⟩ := derives_of_compile hcompile
      have htoken := hd.token_implemented
      refine ⟨tokens, htokens, hd.atoms, ?_, htoken⟩
      exact fun letters hword => Token.isName_of_implemented (htoken _ hword)
    · rw [mentionsVariable_of_compile hcompile]
    · exact fun x name hfailed => unbound_of_eval hcompile hfailed
  · rintro ⟨cause, hmalformed⟩
    rcases valueOf_error_cases hmalformed with hcompile | ⟨tree, hcompile, heval⟩
    · exact ⟨_, hcompile⟩
    · exact absurd heval (Expr.eval_ne_malformed (compile_implemented hcompile) none cause)
  · rintro ⟨e, hcompile⟩
    obtain ⟨cause, rfl⟩ := compile_malformed hcompile
    exact ⟨cause, valueOf_of_compile_error hcompile⟩
  · intro hscalar herror
    obtain ⟨e, hfailed⟩ := evaluate_eq_error_iff.mp herror
    refine ⟨e, hfailed, ?_⟩
    rintro name rfl
    rcases valueOf_error_cases hfailed with hcompile | ⟨tree, hcompile, heval⟩
    · obtain ⟨cause, hcause⟩ := compile_malformed hcompile
      exact absurd hcause (by simp)
    · exact absurd (unbound_of_eval hcompile heval).2 (by simp [hscalar])
  · intro hmentions value hvalue
    cases hcompile : compile input with
    | error e =>
        rw [valueOf_of_compile_error hcompile] at hvalue
        exact absurd hvalue (by simp)
    | ok tree =>
        rw [valueOf_of_compile hcompile] at hvalue
        obtain ⟨e, he⟩ :=
          Expr.eval_none_of_mentions ((mentionsVariable_of_compile hcompile).trans hmentions)
        exact absurd (he.symm.trans hvalue) (by simp)

/-- The text `ln(2x)`, whose tree fails with `.unbound` without a value and with `.domain` at zero. -/
theorem failures_told_apart_logarithm :
    let input := "ln(2x)"
    let tree : Expr := .call "ln" (.binary '*' (.number 2) .variable)
    compile input = .ok tree ∧ tree.Implemented ∧ mentionsVariable input = true ∧
      tree.eval none = .error (.unbound 'x') ∧ tree.eval (some 0) = .error (.domain .ln) ∧
      (∀ x cause, tree.eval x ≠ .error (.malformed cause)) ∧
      ∀ value, valueOf input ≠ .ok value := by
  intro input tree
  have hcompile : compile input = .ok tree := by decide +kernel
  have hmentions : mentionsVariable input = true := by decide +kernel
  obtain ⟨hread, -, -, hvalue⟩ := failures_told_apart input
  obtain ⟨himplemented, -, -, hmalformed, -⟩ := hread tree hcompile
  exact ⟨hcompile, himplemented, hmentions, rfl, by decide +kernel, hmalformed, hvalue hmentions⟩

end

end Calculator
