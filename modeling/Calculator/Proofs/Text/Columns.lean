import Calculator.Text.Width
import Mathlib

/-!
# `Proofs.Text.Columns` — how wide a text can be

The width of a text is not the sum of the widths of its characters. A character may add less to what follows
it than it takes by itself, and before a selector it may add more: the two columns of a picture instead of
the one of a sign. But the selector takes no column, and so a text is never wider than its characters are
with one column for each that has none. What carries this through the text is a column that a selector leaves
over for the character in front of it.

## Contents

* `breadth` — the columns that a character takes at most
* `Follow.spare` — the column that is left over
* `Follow.step_le`, `measure_le`, `width_le` — one character, and a text
* `sum_breadth` — a text of which some characters are wide
-/

namespace Calculator.Text

/-- The columns that a character takes at most in a text. -/
def breadth (c : Char) : Nat := max 1 (columns c)

/-- The column that a selector leaves over for the character in front of it. -/
def Follow.spare (follow : Follow) : Int := if follow = .emojiSelector then 1 else 0

variable {follow next : Follow} {c : Char} {sum : Int}

namespace Follow

theorem spare_nonneg (follow : Follow) : 0 ≤ follow.spare := by
  unfold spare
  split <;> decide

theorem spare_of (c : Char) : (of c).spare = 0 := by
  unfold of
  simp only
  split_ifs <;> rfl

theorem spare_join (follow : Follow) : follow.join.spare = 0 := by
  cases follow <;> rfl

/-- Characters that are shown as one. -/
theorem shared?_le (h : follow.shared? c = some (sum, next)) : sum + next.spare ≤ follow.spare + 1 := by
  unfold shared? at h
  cases follow with
  | plain | picture | lamed | buginese | orkhon => contradiction
  | _ =>
      simp only at h
      grind [spare]

/-- **One character** takes no more than its `breadth` and the column that is `spare` before it. -/
theorem step_le (follow : Follow) (c : Char) :
    (follow.step c).1 + (follow.step c).2.spare ≤ follow.spare + breadth c := by
  have hcolumns : (columns c : Int) ≤ breadth c := by
    unfold breadth
    omega
  have hone : (1 : Int) ≤ breadth c := by
    unfold breadth
    omega
  have hspare := follow.spare_nonneg
  unfold step
  simp only
  split
  · show (columns c : Int) + spare .plain ≤ _
    have hplain : spare .plain = 0 := rfl
    omega
  split
  · rename_i hshared
    have hle := shared?_le hshared
    omega
  split
  · -- a selector takes no column and leaves its own over
    show 0 + spare (if follow = .joinedPicture then .joinedSelector else .emojiSelector) ≤ _
    have hone' : spare (if follow = .joinedPicture then .joinedSelector else .emojiSelector) ≤ 1 := by
      split <;> decide
    omega
  split
  · show 0 + spare .textSelector ≤ _
    have htext : spare .textSelector = 0 := rfl
    omega
  split
  · show 0 + follow.join.spare ≤ _
    rw [spare_join]
    omega
  split
  · show 0 + follow.spare ≤ _
    omega
  · show (columns c : Int) + (of c).spare ≤ _
    rw [spare_of]
    omega

end Follow

/-- **A text** takes no more columns by `measure` than the `breadth` of its characters. -/
theorem measure_le (text : List Char) :
    (measure text).1 + (measure text).2.spare ≤ (text.map breadth).sum := by
  induction text with
  | nil => decide
  | cons c rest ih =>
      have hstep := (measure rest).2.step_le c
      have hsum : (((c :: rest).map breadth).sum : Int) = breadth c + (rest.map breadth).sum := by
        rw [List.map_cons, List.sum_cons]
        push_cast
        rfl
      rw [hsum]
      show (measure rest).1 + ((measure rest).2.step c).1 + ((measure rest).2.step c).2.spare ≤ _
      omega

theorem width_le (text : List Char) : width text ≤ (text.map breadth).sum := by
  have hle := measure_le text
  have hspare := (measure text).2.spare_nonneg
  unfold width
  omega

/-- The columns of a text are its length, and for each wide character what this has beyond one. -/
theorem sum_breadth (text : List Char) :
    (text.map breadth).sum = text.length + (text.map fun c => columns c - 1).sum := by
  induction text with
  | nil => rfl
  | cons c rest ih =>
      have hc : breadth c = 1 + (columns c - 1) := by
        unfold breadth
        omega
      rw [List.map_cons, List.sum_cons, ih, hc, List.map_cons, List.sum_cons, List.length_cons]
      omega

end Calculator.Text
