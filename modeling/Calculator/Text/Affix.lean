/-!
# `Text.Affix` — what a text starts and ends with

## Contents

* `afterStart?` — what follows a given start
* `dropStarts`, `dropEnds` — a text without a marker, repeated any number of times
-/

namespace Calculator.Text

/-- What follows `start` at the start of a text. -/
def afterStart? (start text : List Char) : Option (List Char) :=
  if start.isPrefixOf text then some (text.drop start.length) else none

theorem afterStart?_append (start rest : List Char) : afterStart? start (start ++ rest) = some rest := by
  unfold afterStart?
  rw [if_pos (List.isPrefixOf_iff_prefix.2 (List.prefix_append start rest)), List.drop_left]

theorem afterStart?_eq_none {start text : List Char} (h : ¬start <+: text) :
    afterStart? start text = none :=
  if_neg fun hprefix => h (List.isPrefixOf_iff_prefix.1 hprefix)

/-- The text without `marker` at its start, as often as it stands there. -/
def dropStarts (marker text : List Char) : List Char :=
  if marker ≠ [] ∧ marker.isPrefixOf text then dropStarts marker (text.drop marker.length) else text
termination_by text.length
decreasing_by
  rename_i h
  obtain ⟨hne, hprefix⟩ := h
  have hlen := (List.isPrefixOf_iff_prefix.1 hprefix).length_le
  have hpos := List.length_pos_iff.2 hne
  simp only [List.length_drop]
  omega

theorem dropStarts_append {marker : List Char} (hne : marker ≠ []) (text : List Char) :
    dropStarts marker (marker ++ text) = dropStarts marker text := by
  rw [dropStarts, if_pos ⟨hne, List.isPrefixOf_iff_prefix.2 (List.prefix_append marker text)⟩,
    List.drop_left]

theorem dropStarts_of_not_prefix {marker text : List Char} (h : ¬marker <+: text) :
    dropStarts marker text = text := by
  rw [dropStarts, if_neg fun hboth => h (List.isPrefixOf_iff_prefix.1 hboth.2)]

/-- What `dropStarts` takes off is the marker a number of times, and then it stands there no more. -/
theorem exists_dropStarts {marker : List Char} (hne : marker ≠ []) (text : List Char) :
    ∃ marks, text = (List.replicate marks marker).flatten ++ dropStarts marker text ∧
      ¬marker <+: dropStarts marker text := by
  fun_induction dropStarts marker text with
  | case1 text h ih =>
      obtain ⟨rest, rfl⟩ := List.isPrefixOf_iff_prefix.1 h.2
      obtain ⟨marks, hrest, hstart⟩ := ih
      rw [List.drop_left] at hrest hstart ⊢
      refine ⟨marks + 1, ?_, hstart⟩
      rw [List.replicate_succ, List.flatten_cons, List.append_assoc, ← hrest]
  | case2 text h =>
      exact ⟨0, rfl, fun hstart => h ⟨hne, List.isPrefixOf_iff_prefix.2 hstart⟩⟩

/-- The text without `marker` at its end, as often as it stands there. -/
def dropEnds (marker text : List Char) : List Char :=
  (dropStarts marker.reverse text.reverse).reverse

theorem dropEnds_append {marker : List Char} (hne : marker ≠ []) (text : List Char) :
    dropEnds marker (text ++ marker) = dropEnds marker text := by
  have hreverse : marker.reverse ≠ [] := fun hnil => hne (List.reverse_eq_nil_iff.1 hnil)
  rw [dropEnds, List.reverse_append, dropStarts_append hreverse, dropEnds]

theorem dropEnds_append_marks {marker : List Char} (hne : marker ≠ []) (text : List Char) (marks : Nat) :
    dropEnds marker (text ++ (List.replicate marks marker).flatten) = dropEnds marker text := by
  induction marks with
  | zero => rw [List.replicate_zero, List.flatten_nil, List.append_nil]
  | succ marks ih =>
      rw [List.replicate_succ', List.flatten_append, List.flatten_singleton, ← List.append_assoc,
        dropEnds_append hne, ih]

theorem dropEnds_of_not_suffix {marker text : List Char} (h : ¬marker <:+ text) :
    dropEnds marker text = text := by
  rw [dropEnds, dropStarts_of_not_prefix fun hprefix => h (List.reverse_prefix.1 hprefix),
    List.reverse_reverse]

/-- What `dropEnds` takes off is the marker a number of times, and then it stands there no more. -/
theorem exists_dropEnds {marker : List Char} (hne : marker ≠ []) (text : List Char) :
    ∃ marks, text = dropEnds marker text ++ (List.replicate marks marker).flatten ∧
      ¬marker <:+ dropEnds marker text := by
  obtain ⟨marks, htext, hstart⟩ :=
    exists_dropStarts (fun hnil => hne (List.reverse_eq_nil_iff.1 hnil)) text.reverse
  refine ⟨marks, ?_, fun hend => hstart ?_⟩
  · calc text = text.reverse.reverse := (List.reverse_reverse text).symm
      _ = dropEnds marker text ++ (List.replicate marks marker.reverse).flatten.reverse := by
        rw [htext, List.reverse_append, dropEnds]
      _ = dropEnds marker text ++ (List.replicate marks marker).flatten := by
        rw [List.reverse_flatten, List.map_replicate, List.reverse_replicate, List.reverse_reverse]
  · exact List.reverse_suffix.1 (by rwa [List.reverse_reverse])

end Calculator.Text
