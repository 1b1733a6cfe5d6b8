/-!
# `Expression.Vocabulary` — the names that an expression can hold

The names are plain words. Two lists say which of them may stand in an expression, as a constant or as
a function. What a name stands for is not said here: `Constant.value` and `Function.apply` read the word
once more, each by a table of its own.

## Contents

* `Constant.names`, `Constant.named?`
* `Function.names`, `Function.named?`
* `isName`, `variableName`
-/

namespace Calculator

namespace Constant

/-- The names of numbers. -/
def names : List String := ["pi", "e"]

/-- The name of a constant that a word is, if it is one. -/
def named? (word : String) : Option String := if word ∈ names then some word else none

theorem named?_eq_some_iff {word name : String} :
    named? word = some name ↔ word ∈ names ∧ word = name := by
  simp [named?]

theorem named?_of_mem {name : String} (h : name ∈ names) : named? name = some name := if_pos h

end Constant

namespace Function

/-- The names of the functions of one argument. -/
def names : List String :=
  ["sin", "cos", "tan", "asin", "acos", "atan", "sinh", "cosh", "tanh", "log", "ln", "exp", "sqrt",
    "abs", "floor", "ceil", "round"]

/-- The name of a function that a word is, if it is one. -/
def named? (word : String) : Option String := if word ∈ names then some word else none

theorem named?_eq_some_iff {word name : String} :
    named? word = some name ↔ word ∈ names ∧ word = name := by
  simp [named?]

theorem named?_of_mem {name : String} (h : name ∈ names) : named? name = some name := if_pos h

/-- No word names both a constant and a function. -/
theorem constantNamed?_of_mem {name : String} (h : name ∈ names) : Constant.named? name = none := by
  have hdisjoint : ∀ name ∈ names, name ∉ Constant.names := by decide
  exact if_neg (hdisjoint name h)

end Function

/-- Whether a word is one of `Constant.names` or `Function.names`. -/
def isName (word : String) : Bool :=
  (Constant.named? word).isSome || (Function.named? word).isSome

theorem isName_eq_true_iff {word : String} :
    isName word = true ↔ word ∈ Constant.names ∨ word ∈ Function.names := by
  simp [isName, Constant.named?, Function.named?]

/-- The letter of the free variable. -/
def variableName : Char := 'x'

end Calculator
