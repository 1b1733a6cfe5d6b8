import Calculator.Proofs.Grammar.Completeness

/-!
# `Proofs.Grammar.Atoms` — no number, name or variable is lost or invented

Of the tokens of an expression some stand for something by themselves: numbers, words and the variable.
The others say how these belong together, and the tree says that by its shape. So the tree has the very
atoms that the tokens have, in the same order, whatever signs, parentheses and products are left out or
leave no trace. In particular the variable is in the tree exactly if it is among the tokens.

## Contents

* `Token.isAtom`, `Expr.atoms` — the atoms of tokens and of a tree
* `Derives.atoms` — they are the same
* `variable_mem_atoms_iff` — the variable as an atom
* `derives_of_compile`, `mentionsVariable_of_compile` — texts
-/

namespace Calculator

/-- Whether a token stands for something by itself. -/
def Token.isAtom : Token → Bool
  | .number _ | .word _ | .variable => true
  | .operator _ | .opening | .closing => false

/-- The numbers, the names and the variables of a tree, in the order in which they are written. -/
def Expr.atoms : Expr → List Token
  | .number value => [.number value]
  | .constant name => [.word name]
  | .variable => [.variable]
  | .neg operand => operand.atoms
  | .binary _ left right => left.atoms ++ right.atoms
  | .call name argument => .word name :: argument.atoms

section

variable {category : Category} {nesting : Nat} {tokens : List Token} {tree : Expr}
  {input : String}

/-- **The atoms stay**: those among the tokens of a phrase (`Token.isAtom`) are the `atoms` of its tree. -/
theorem Derives.atoms (h : Derives category nesting tokens tree) :
    tokens.filter Token.isAtom = tree.atoms := by
  induction h with
  | ofProduct product ih => exact ih
  | addition additive sum product ihs ihp =>
      rw [List.filter_append, List.filter_cons_of_neg (by simp [Token.isAtom]), ihs, ihp]
      rfl
  | ofSigned signed ih => exact ih
  | multiplication multiplicative product signed ihp ihs =>
      rw [List.filter_append, List.filter_cons_of_neg (by simp [Token.isAtom]), ihp, ihs]
      rfl
  | juxtaposition begins product signed ihp ihs =>
      -- the token that begins the factor belongs to it, be it an atom or not
      rw [List.filter_append, ihp, ihs]
      rfl
  | minus signed ih =>
      rw [List.filter_cons_of_neg (by simp [Token.isAtom]), ih]
      rfl
  | plus signed ih => rw [List.filter_cons_of_neg (by simp [Token.isAtom]), ih]
  | ofPower power ih => exact ih
  | ofPrimary primary ih => exact ih
  | exponentiation primary signed ihp ihs =>
      rw [List.filter_append, List.filter_cons_of_neg (by simp [Token.isAtom]), ihp, ihs]
      rfl
  | number value => rfl
  | constant known => rfl
  | «variable» => rfl
  | parentheses sum ih =>
      rw [List.filter_cons_of_neg (by simp [Token.isAtom]), List.filter_append, ih]
      exact List.append_nil _
  | call known sum ih =>
      rw [List.filter_cons_of_pos rfl, List.filter_cons_of_neg (by simp [Token.isAtom]),
        List.filter_append, ih]
      exact congrArg _ (List.append_nil _)

theorem variable_mem_atoms_iff : .variable ∈ tree.atoms ↔ tree.mentionsVariable = true := by
  induction tree with
  | number value => simp [Expr.atoms, Expr.mentionsVariable]
  | constant name => simp [Expr.atoms, Expr.mentionsVariable]
  | «variable» => simp [Expr.atoms, Expr.mentionsVariable]
  | neg operand ih => exact ih
  | binary sign left right ihl ihr => simp [Expr.atoms, Expr.mentionsVariable, ihl, ihr]
  | call name argument ih => simp [Expr.atoms, Expr.mentionsVariable, ih]

/-! ## Texts -/

theorem compile_eq_ok_iff : compile input = .ok tree ↔
    ∃ tokens, tokenize input = .ok tokens ∧ Expr.ofTokens tokens = .ok tree := by
  unfold compile
  cases tokenize input with
  | error e => simp
  | ok tokens => simp

/-- A text that is read has tokens with a derivation of its tree. -/
theorem derives_of_compile (h : compile input = .ok tree) :
    ∃ tokens nesting, tokenize input = .ok tokens ∧ Derives .sum nesting tokens tree := by
  obtain ⟨tokens, htokens, hread⟩ := compile_eq_ok_iff.mp h
  obtain ⟨-, nesting, -, hd⟩ := derivesWithin_of_ofTokens hread
  exact ⟨tokens, nesting, htokens, hd⟩

/-- A text is graphed exactly if its tree has the variable in it. -/
theorem mentionsVariable_of_compile (h : compile input = .ok tree) :
    tree.mentionsVariable = mentionsVariable input := by
  obtain ⟨tokens, nesting, htokens, hd⟩ := derives_of_compile h
  unfold mentionsVariable
  rw [htokens, Bool.eq_iff_iff, ← variable_mem_atoms_iff, ← hd.atoms, List.mem_filter]
  simp [Token.isAtom]

end

end Calculator
