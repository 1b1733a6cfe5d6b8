import Calculator.Expression.Value
import Calculator.Proofs.Grammar.Halting

/-!
# `Proofs.Grammar.Height` — what reading and evaluation need

Every operation of a tree owes its place to a token of its own or, where the sign of a product is left out,
to one of the tokens that part its operands. A tree is therefore no higher than its tokens are many, and so
many evaluations at most wait for each other when it is evaluated.

## Contents

* `Derives.height_le` — a tree is no higher than its tokens are many
* `Expr.evalWithin`, `Expr.evalWithin_eq` — evaluation with room for so many calls
* `reading_stays_bounded`
-/

namespace Calculator

section

variable {category : Category} {nesting levels : Nat} {tokens : List Token} {tree : Expr}

/-- **A tree is no higher than its tokens are many** (`height`). Where two phrases stand side by side without
an operator, both have a token, and that makes up for the product above them. -/
theorem Derives.height_le (h : Derives category nesting tokens tree) : tree.height ≤ tokens.length := by
  induction h with
  | ofProduct _ ih | ofSigned _ ih | ofPower _ ih | ofPrimary _ ih => exact ih
  | addition _ _ _ ihl ihr | multiplication _ _ _ ihl ihr | exponentiation _ _ ihl ihr =>
      rw [Expr.height, List.length_append, List.length_cons]
      omega
  | juxtaposition _ hl hr ihl ihr =>
      have hleft := hl.length_pos
      have hright := hr.length_pos
      rw [Expr.height, List.length_append]
      omega
  | minus _ ih =>
      rw [Expr.height, List.length_cons]
      omega
  | plus _ ih =>
      rw [List.length_cons]
      omega
  | number | constant | «variable» => exact Nat.le_refl 1
  | parentheses _ ih =>
      rw [List.length_cons, List.length_append]
      omega
  | call _ _ ih =>
      rw [Expr.height, List.length_cons, List.length_cons, List.length_append]
      omega

/-! ## Evaluation with limited room -/

/-- The value of a tree where no more than `levels` evaluations may be under way at once, each in the middle
of the one before it; none if that is not room enough. -/
def Expr.evalWithin (x : Option Float) : (levels : Nat) → Expr → Option (Except ExprError Float)
  | 0, _ => none
  | _ + 1, .number value => some (requireFinite value)
  | _ + 1, .constant name => some ((Constant.value name).bind requireFinite)
  | _ + 1, .variable =>
    match x with
    | none => some (.error (.unbound variableName))
    | some value => some (requireFinite value)
  | levels + 1, .neg operand =>
    (evalWithin x levels operand).map fun outcome => outcome.bind fun value => requireFinite (-value)
  | levels + 1, .binary sign left right =>
    match evalWithin x levels left with
    | none => none
    | some (.error e) => some (.error e)
    | some (.ok leftValue) =>
      (evalWithin x levels right).map fun outcome =>
        outcome.bind fun rightValue => (Operator.apply sign leftValue rightValue).bind requireFinite
  | levels + 1, .call name argument =>
    (evalWithin x levels argument).map fun outcome =>
      outcome.bind fun value => (Function.apply name value).bind requireFinite

theorem Expr.exists_below (h : tree.height ≤ levels) : ∃ below, levels = below + 1 := by
  have hpos : 0 < tree.height := by cases tree <;> exact Nat.succ_pos _
  exact Nat.exists_eq_add_one.mpr (Nat.lt_of_lt_of_le hpos h)

/-- **Room for the height of a tree is enough** for `evalWithin`: each evaluation leaves one level less to
those of its operands, which are lower by one. -/
theorem Expr.evalWithin_eq (x : Option Float) (h : tree.height ≤ levels) :
    tree.evalWithin x levels = some (tree.eval x) := by
  induction tree generalizing levels with
  | number value =>
      obtain ⟨below, rfl⟩ := exists_below h
      rfl
  | constant name =>
      obtain ⟨below, rfl⟩ := exists_below h
      rw [evalWithin, eval_constant]
  | «variable» =>
      obtain ⟨below, rfl⟩ := exists_below h
      cases x <;> rfl
  | neg operand ih =>
      obtain ⟨below, rfl⟩ := exists_below h
      rw [evalWithin, ih (Nat.le_of_succ_le_succ h), eval_neg, Option.map_some]
  | binary sign left right ihl ihr =>
      obtain ⟨below, rfl⟩ := exists_below h
      have hmax : max left.height right.height ≤ below := Nat.le_of_succ_le_succ h
      rw [evalWithin, ihl (by omega), ihr (by omega), eval_binary]
      cases left.eval x <;> rfl
  | call name argument ih =>
      obtain ⟨below, rfl⟩ := exists_below h
      rw [evalWithin, ih (Nat.le_of_succ_le_succ h), eval_call, Option.map_some]

end

namespace Descent

/-- **Reading and evaluation are bounded.** Whatever the tokens are, the `Machine` comes to an end with the
outcome of `Expr.ofTokens`. On the way its cursor's `position` never passes the last token and its `depth`
never passes `nestingLimit`, and every routine returns, with a tree or an error, at the depth of its
`Frame.entry`. The `height` of a tree that is read is at most the number of tokens, which is at most
`tokenLimit`, and with so many evaluations waiting for each other `evalWithin` gives its value. -/
theorem reading_stays_bounded (tokens : List Token) :
    (∃ final : Machine, final.code = .done (Expr.ofTokens tokens) ∧
      final.step? tokens = none ∧
      ∀ machine, Machine.Reaches tokens .start machine → Machine.Reaches tokens machine final) ∧
    (∀ machine, Machine.Reaches tokens .start machine →
      machine.cursor.position ≤ tokens.length ∧ machine.cursor.depth ≤ nestingLimit ∧
      ∀ result frame frames, machine.code = .done result → machine.frames = frame :: frames →
        machine.cursor.depth = frame.entry.depth) ∧
    ∀ tree, Expr.ofTokens tokens = .ok tree →
      tree.height ≤ tokens.length ∧ tokens.length ≤ tokenLimit ∧
      ∀ x, tree.evalWithin x tokens.length = some (tree.eval x) := by
  refine ⟨?_, fun machine hrun => ?_, fun tree hread => ?_⟩
  · obtain ⟨last, -, -, hrun⟩ := machine_halts tokens
    exact ⟨_, rfl, rfl, fun machine hreaches => hreaches.halts hrun rfl⟩
  · have hsound := (Machine.sound_start tokens).reaches hrun
    exact ⟨hsound.position_le, hsound.depth_le, fun _ _ _ hdone hframes => hsound.depth_eq hdone hframes⟩
  · obtain ⟨hlength, nesting, -, hd⟩ := derivesWithin_of_ofTokens hread
    exact ⟨hd.height_le, hlength, fun x => tree.evalWithin_eq x hd.height_le⟩

/-- Two tokens may be an operation and its two operands. -/
theorem reading_stays_bounded_juxtaposition :
    Expr.ofTokens [.variable, .variable] = .ok (.binary '*' .variable .variable) ∧
      (Expr.binary '*' .variable .variable).height = 2 ∧
      (Expr.binary '*' .variable .variable).height ≤ [Token.variable, Token.variable].length :=
  ⟨rfl, rfl, ((reading_stays_bounded [.variable, .variable]).2.2 _ rfl).1⟩

end Descent

end Calculator
