import Mathlib.Logic.Function.Iterate
import Calculator.Proofs.Session.Run
import Calculator.Proofs.Text.Boundary

/-!
# `Proofs.Session.Erasing` — taking back one symbol after another

Each deletion looks for the last symbol in the text that it finds, so after a few of them the text has been
divided into symbols as many times, a shorter one each time. It might be feared that a symbol that is whole
in the long text falls apart in a shorter one, or grows together with its neighbour. This does not happen,
since the text is cut off behind a symbol every time. Hence the symbols of the expression as it was at
first, counted from the end, are what goes.

## Contents

* `eraseLast_of_fallsInto` — one deletion
* `iterate_eraseLast` — any number of deletions, with the symbols given
* `iterate_eraseLast_symbols` — the same for every session
-/

namespace Calculator.Session

section

variable {session : Session} {symbols : List (List Char)}

theorem editedMode_ofList (text : List Char) :
    editedMode (String.ofList text) = if text = [] then .idle else .editing := by
  unfold editedMode
  simp only [String.isEmpty_iff, String.ofList_eq_empty_iff]

/-- **One deletion** by `eraseLast` takes the last symbol, if there is one, and changes nothing but expression
and mode. -/
theorem eraseLast_of_fallsInto (h : Text.FallsInto session.expression.toList symbols) :
    session.eraseLast =
      { session with
        expression := String.ofList symbols.dropLast.flatten
        mode := if symbols.dropLast = [] then .idle else .editing } := by
  have hleft : Text.FallsInto symbols.dropLast.flatten symbols.dropLast := by
    rw [List.dropLast_eq_take]
    exact h.take _
  have hsymbols : Text.clusters session.expression.toList = symbols := (Text.fallsInto_iff.mp h).symm
  simp only [eraseLast, withoutLastSymbol, hsymbols, editedMode_ofList, hleft.eq_nil_iff]

/-- **Any number of deletions.** The symbols that are left are the symbols of what is left (`FallsInto.take`),
which is why the next deletion takes one of them. -/
theorem iterate_eraseLast (h : Text.FallsInto session.expression.toList symbols) (k : Nat) :
    eraseLast^[k] session =
      { session with
        expression := String.ofList (symbols.take (symbols.length - k)).flatten
        mode := if k = 0 then session.mode else if k < symbols.length then .editing else .idle } := by
  induction k with
  | zero =>
      have hall : String.ofList (symbols.take (symbols.length - 0)).flatten = session.expression := by
        rw [Nat.sub_zero, List.take_length, h.flatten, String.ofList_toList]
      rw [Function.iterate_zero_apply, hall, if_pos rfl]
  | succ k ih =>
      have hleft : Text.FallsInto (eraseLast^[k] session).expression.toList
          (symbols.take (symbols.length - k)) := by
        rw [ih, String.toList_ofList]
        exact h.take _
      have hfewer : (symbols.take (symbols.length - k)).dropLast =
          symbols.take (symbols.length - (k + 1)) := by
        rw [List.dropLast_eq_take, List.length_take, List.take_take]
        congr 1
        omega
      have hnone : symbols.take (symbols.length - (k + 1)) = [] ↔ ¬k + 1 < symbols.length := by
        rw [← List.length_eq_zero_iff, List.length_take]
        omega
      rw [Function.iterate_succ_apply', eraseLast_of_fallsInto hleft, hfewer, ih]
      simp only [hnone, Nat.succ_ne_zero, if_false, ite_not]

end

/-- **Deleting takes one symbol at a time.** The expression of a session falls into symbols in exactly one way
that obeys the rules of segmentation (`Text.FallsInto`). If it has `n` of them, `eraseLast` done `k` times
leaves the first `n - k`, so that none are left from the `n`-th on. The mode is `editing` as long as something
is left and `idle` as soon as nothing is. Everything else stays as it was. -/
theorem iterate_eraseLast_symbols (session : Session) :
    ∃ symbols, (∀ others, Text.FallsInto session.expression.toList others ↔ others = symbols) ∧
      ∀ k, eraseLast^[k] session =
        { session with
          expression := String.ofList (symbols.take (symbols.length - k)).flatten
          mode := if k = 0 then session.mode else if k < symbols.length then .editing else .idle } :=
  ⟨Text.clusters session.expression.toList, fun _ => Text.fallsInto_iff, fun k =>
    iterate_eraseLast (Text.fallsInto_iff.mpr rfl) k⟩

/-- An accent, a flag, a family and a line end are one symbol each; the third regional indicator in a row
is one, too. -/
example :
    (List.range 7).map (fun k => (eraseLast^[k] { empty with
      expression := "e\u0301🇩🇪🇫👩‍👧\r\n" }).expression) =
      ["e\u0301🇩🇪🇫👩‍👧\r\n", "e\u0301🇩🇪🇫👩‍👧", "e\u0301🇩🇪🇫", "e\u0301🇩🇪", "e\u0301", "", ""] := by
  decide +kernel

end Calculator.Session
