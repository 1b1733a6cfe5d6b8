import Calculator.Expression.Value
import Calculator.Proofs.Grammar.Atoms

/-!
# `Proofs.Expression.Implemented` — every name that is read is one that is evaluated

A tree holds operators by their signs, and constants and functions by their names. Which of them there are
is decided in three places, each by a table of its own:

* when a text is cut into tokens, by `Token.ofSymbol?` and the lists `Constant.names` and `Function.names`;
* when the tokens become a tree, by the guards of the readers: `sumOperator?`, `productOperator?`,
  `readSigned`, `readPower` and `readWord`;
* when the tree is evaluated, by `Constant.value`, `Operator.apply` and `Function.apply`, which refuse what
  they do not know as `.malformed`.

`Constant.Implemented`, `Operator.Implemented` and `Function.Implemented` speak of the third place alone. Each
holds of the members of one list and of nothing else, and what the readers let through is a member. So a
tree that has been read is `Expr.Implemented` as a whole, and the refusals of the third place are never
reached from a text.

## Contents

* `Operator.signs`; `Constant.value_of_not_mem`, `Operator.apply_of_not_mem`, `Function.apply_of_not_mem` —
  what the interpreter does not know
* `Operator.refusal_of_mem`, `Function.refusal_of_mem` — what it refuses of what it knows
* `Constant.implemented_iff`, `Operator.implemented_iff`, `Function.implemented_iff` — the three tables
* `Derives.implemented`, `Derives.token_implemented`, `compile_implemented` — what has been read
-/

namespace Calculator

/-- The signs of the operators. -/
def Operator.signs : List Char := ['+', '-', '*', '/', '^']

/-- `Constant.value` has a number for the name. -/
def Constant.Implemented (name : String) : Prop := ∃ value, Constant.value name = .ok value

/-- `Operator.apply` never calls the sign malformed. -/
def Operator.Implemented (sign : Char) : Prop :=
  ∀ left right cause, Operator.apply sign left right ≠ .error (.malformed cause)

/-- `Function.apply` never calls the name malformed. -/
def Function.Implemented (name : String) : Prop :=
  ∀ x cause, Function.apply name x ≠ .error (.malformed cause)

/-- **Every constant, operator and function of a tree is implemented**: those for which `eval` has a rule of
their own. -/
def Expr.Implemented : Expr → Prop
  | .number _ | .variable => True
  | .constant name => Constant.Implemented name
  | .neg operand => operand.Implemented
  | .binary sign left right => Operator.Implemented sign ∧ left.Implemented ∧ right.Implemented
  | .call name argument => Function.Implemented name ∧ argument.Implemented

/-- What a token names is implemented. -/
def Token.Implemented : Token → Prop
  | .operator sign => Operator.Implemented sign
  | .word letters => Constant.Implemented letters ∨ Function.Implemented letters
  | .number _ | .variable | .opening | .closing => True

section

variable {name : String} {sign : Char} {value x left right : Float} {e : ExprError}

/-! ## The tables of the interpreter -/

theorem Constant.value_of_not_mem (h : name ∉ names) :
    Constant.value name = .error (.malformed (.unknownConstant name)) := by
  unfold Constant.value
  split
  case h_3 => rfl
  all_goals exact absurd (by decide) h

theorem Operator.apply_of_not_mem (h : sign ∉ signs) :
    apply sign left right = .error (.malformed (.unknownOperator sign)) := by
  unfold apply
  split
  case h_6 => rfl
  all_goals exact absurd (by decide) h

theorem Function.apply_of_not_mem (h : name ∉ names) :
    apply name x = .error (.malformed (.unknownFunction name)) := by
  unfold apply
  split
  case h_18 => rfl
  all_goals exact absurd (by decide) h

/-- A guarded operation fails only at its guard. -/
theorem refusal_of_guard {guard : Prop} [Decidable guard] {refusal : ExprError}
    (h : (if guard then .error refusal else .ok value) = Except.error e) : e = refusal := by
  split at h
  · injection h with h
    exact h.symm
  · exact absurd h (by simp)

/-- An operator with a sign that is known refuses a zero divisor, and a power without a real value. -/
theorem Operator.refusal_of_mem (hknown : sign ∈ signs) (h : apply sign left right = .error e) :
    e = .overflow .divisionByZero ∨ e = .domain (.power left right) := by
  unfold apply at h
  split at h
  case h_4 => exact .inl (refusal_of_guard h)
  case h_5 => exact .inr (refusal_of_guard h)
  case h_6 => exact absurd hknown (by simp_all [signs])
  all_goals exact absurd h (by simp)

/-- A function with a name that is known refuses an argument outside of its domain. -/
theorem Function.refusal_of_mem (hknown : name ∈ names) (h : apply name x = .error e) :
    ∃ cause, e = .domain cause := by
  unfold apply at h
  split at h
  -- the two inverse functions are guarded the other way round
  case h_4 | h_5 =>
    rw [← ite_not] at h
    exact ⟨_, refusal_of_guard h⟩
  case h_10 | h_11 | h_13 => exact ⟨_, refusal_of_guard h⟩
  case h_18 => exact absurd hknown (by simp_all [names])
  all_goals exact absurd h (by simp)

/-- **The constants of the interpreter** are those of `Constant.names`. -/
theorem Constant.implemented_iff : Constant.Implemented name ↔ name ∈ names := by
  constructor
  · rintro ⟨value, hvalue⟩
    refine Decidable.byContradiction fun hunknown => ?_
    rw [value_of_not_mem hunknown] at hvalue
    exact absurd hvalue (by simp)
  · intro h
    simp only [names, List.mem_cons, List.not_mem_nil, or_false] at h
    rcases h with rfl | rfl
    · exact ⟨pi, rfl⟩
    · exact ⟨e, rfl⟩

/-- **The operators of the interpreter** are those of `Operator.signs`. -/
theorem Operator.implemented_iff : Operator.Implemented sign ↔ sign ∈ signs := by
  constructor
  · intro h
    exact Decidable.byContradiction fun hunknown => h 0 0 _ (apply_of_not_mem hunknown)
  · intro hknown left right cause h
    rcases refusal_of_mem hknown h with hrefused | hrefused <;> exact absurd hrefused (by simp)

/-- **The functions of the interpreter** are those of `Function.names`. -/
theorem Function.implemented_iff : Function.Implemented name ↔ name ∈ names := by
  constructor
  · intro h
    exact Decidable.byContradiction fun hunknown => h 0 _ (apply_of_not_mem hunknown)
  · intro hknown x cause h
    obtain ⟨cause', hrefused⟩ := refusal_of_mem hknown h
    exact absurd hrefused (by simp)

end

section

variable {category : Category} {nesting : Nat} {tokens : List Token} {tree : Expr} {token : Token}
  {input : String}

/-! ## What the readers let through -/

theorem Operator.implemented_of_additive {sign : Char} (h : sign = '+' ∨ sign = '-') :
    Operator.Implemented sign := by
  rcases h with rfl | rfl <;> exact Operator.implemented_iff.mpr (by decide)

theorem Operator.implemented_of_multiplicative {sign : Char} (h : sign = '*' ∨ sign = '/') :
    Operator.Implemented sign := by
  rcases h with rfl | rfl <;> exact Operator.implemented_iff.mpr (by decide)

theorem Operator.implemented_power : Operator.Implemented '^' := Operator.implemented_iff.mpr (by decide)

/-- **A tree that has been read is implemented.** Each rule of `Derives` for an operator asks for its sign,
and the rules for constants and functions ask for a name of `Constant.names` or `Function.names`. -/
theorem Derives.implemented (h : Derives category nesting tokens tree) : tree.Implemented := by
  induction h with
  | ofProduct _ ih | ofSigned _ ih | minus _ ih | plus _ ih | ofPower _ ih | ofPrimary _ ih
  | parentheses _ ih => exact ih
  | addition additive _ _ ihl ihr => exact ⟨Operator.implemented_of_additive additive, ihl, ihr⟩
  | multiplication multiplicative _ _ ihl ihr =>
      exact ⟨Operator.implemented_of_multiplicative multiplicative, ihl, ihr⟩
  | juxtaposition _ _ _ ihl ihr => exact ⟨Operator.implemented_of_multiplicative (.inl rfl), ihl, ihr⟩
  | exponentiation _ _ ihl ihr => exact ⟨Operator.implemented_power, ihl, ihr⟩
  | number | «variable» => exact trivial
  | constant known => exact Constant.implemented_iff.mpr known
  | call known _ ih => exact ⟨Function.implemented_iff.mpr known, ih⟩

/-- **The tokens of a phrase are implemented** (`Token.Implemented`), those that leave no trace in its tree
among them. -/
theorem Derives.token_implemented (h : Derives category nesting tokens tree) :
    ∀ token ∈ tokens, token.Implemented := by
  induction h with
  | ofProduct _ ih | ofSigned _ ih | ofPower _ ih | ofPrimary _ ih => exact ih
  | addition additive _ _ ihl ihr =>
      refine List.forall_mem_append.mpr ⟨ihl, List.forall_mem_cons.mpr ⟨?_, ihr⟩⟩
      exact Operator.implemented_of_additive additive
  | multiplication multiplicative _ _ ihl ihr =>
      refine List.forall_mem_append.mpr ⟨ihl, List.forall_mem_cons.mpr ⟨?_, ihr⟩⟩
      exact Operator.implemented_of_multiplicative multiplicative
  | juxtaposition _ _ _ ihl ihr => exact List.forall_mem_append.mpr ⟨ihl, ihr⟩
  | minus _ ih => exact List.forall_mem_cons.mpr ⟨Operator.implemented_of_additive (.inr rfl), ih⟩
  | plus _ ih => exact List.forall_mem_cons.mpr ⟨Operator.implemented_of_additive (.inl rfl), ih⟩
  | exponentiation _ _ ihl ihr =>
      exact List.forall_mem_append.mpr ⟨ihl, List.forall_mem_cons.mpr ⟨Operator.implemented_power, ihr⟩⟩
  | number | «variable» => exact List.forall_mem_singleton.mpr trivial
  | constant known => exact List.forall_mem_singleton.mpr (.inl (Constant.implemented_iff.mpr known))
  | parentheses _ ih =>
      refine List.forall_mem_cons.mpr ⟨trivial, List.forall_mem_append.mpr ⟨ih, ?_⟩⟩
      exact List.forall_mem_singleton.mpr trivial
  | call known _ ih =>
      refine List.forall_mem_cons.mpr ⟨.inr (Function.implemented_iff.mpr known), ?_⟩
      refine List.forall_mem_cons.mpr ⟨trivial, List.forall_mem_append.mpr ⟨ih, ?_⟩⟩
      exact List.forall_mem_singleton.mpr trivial

/-- A word that is implemented is a name. -/
theorem Token.isName_of_implemented {letters : String} (h : (Token.word letters).Implemented) :
    isName letters = true :=
  isName_eq_true_iff.mpr (h.imp Constant.implemented_iff.mp Function.implemented_iff.mp)

theorem compile_implemented (h : compile input = .ok tree) : tree.Implemented := by
  obtain ⟨tokens, nesting, -, hd⟩ := derives_of_compile h
  exact hd.implemented

end

end Calculator
