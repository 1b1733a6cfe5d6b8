import Calculator.Proofs.Expression.Parts
import Calculator.Proofs.Text.Columns
import Calculator.Screen.Panes

/-!
# `Proofs.Screen.Inputs` — what the inputs show of a long text

Both inputs show the end of what was typed. The expression is cut by its columns: what is shown is the
longest end that leaves a column for the cursor. The word problem is cut by its characters, as many as there
are columns, and then written into a row that is cut by its columns at the other end. So it is shown to its
end if no character is wide, and if some are, the row may end before the text does.

## Contents

* `endWithin_suffix`, `width_endWithin_le`, `suffix_endWithin` — the longest end that fits
* `flatten_expressionLine`, `head_displayLines` — the parts of an expression
* `totalColumns_le` — the symbols of a text are not wider than its characters
* `rowsOf_cut_eq_iff` — rows that nothing is cut from
* `inputs_show_end` — both inputs
-/

namespace Calculator.Screen

section

variable {text rest : List Char} {room width : Nat} {symbols : List Symbol}

/-! ## The expression -/

theorem endWithin_suffix (room : Nat) (text : List Char) : endWithin room text <:+ text := by
  induction text with
  | nil => exact List.suffix_refl []
  | cons c rest ih =>
      unfold endWithin
      split
      · exact List.suffix_refl _
      · exact ih.trans (List.suffix_cons c rest)

theorem width_endWithin_le (room : Nat) (text : List Char) : Text.width (endWithin room text) ≤ room := by
  induction text with
  | nil => exact Nat.zero_le room
  | cons c rest ih =>
      unfold endWithin
      split
      · assumption
      · exact ih

/-- Any end that fits is an end of what is shown. -/
theorem suffix_endWithin (hend : rest <:+ text) (hfits : Text.width rest ≤ room) :
    rest <:+ endWithin room text := by
  induction text with
  | nil => exact hend
  | cons c text ih =>
      unfold endWithin
      split
      · exact hend
      · rename_i hwide
        rcases List.suffix_cons_iff.mp hend with rfl | hend
        · exact absurd hfits hwide
        · exact ih hend

/-- The parts of an expression make it up. -/
theorem flatten_expressionLine (expression : List Char) :
    (expressionLine expression).flatten = expression :=
  have hparts : Parts [] expression (highlight expression) := parts_highlight fun d hd => absurd hd (by simp)
  List.flatMap_def.symm.trans hparts.flatten

/-- The first line of the display, with its parts put together. -/
theorem head_displayLines (session : Session) (width : Nat) (hne : session.expression.isEmpty = false) :
    (displayLines session width).head?.map List.flatten =
      some (visibleExpression width session.expression.toList) := by
  unfold displayLines
  rw [hne, List.head?_cons, Option.map_some, if_neg Bool.false_ne_true, flatten_expressionLine]

/-! ## The word problem -/

theorem visibleProblem_suffix (width : Nat) (problem : List Char) :
    visibleProblem width problem <:+ problem :=
  List.drop_suffix _ _

theorem length_visibleProblem (width : Nat) (problem : List Char) :
    (visibleProblem width problem).length = min problem.length (width - 2) := by
  have hmark : problemMark.length = 2 := rfl
  rw [visibleProblem, List.length_drop, hmark]
  omega

/-- The columns of the mark and of what is shown behind it, taken one by one. -/
theorem sum_breadth_problem (hwidth : 2 ≤ width) (problem : List Char) :
    ((problemMark ++ visibleProblem width problem).map Text.breadth).sum ≤
      width + ((visibleProblem width problem).map fun c => Text.columns c - 1).sum := by
  have hmark : (problemMark.map Text.breadth).sum = 2 := by decide
  have hlength := length_visibleProblem width problem
  rw [List.map_append, List.sum_append, hmark, Text.sum_breadth]
  omega

/-! ## Rows -/

theorem totalColumns_ofCluster_le (clusters : List (List Char)) :
    Symbol.totalColumns (clusters.map Symbol.ofCluster) ≤ (clusters.flatten.map Text.breadth).sum := by
  induction clusters with
  | nil => exact Nat.le_refl 0
  | cons cluster clusters ih =>
      have hcluster : Text.width cluster ≤ (cluster.map Text.breadth).sum := Text.width_le cluster
      rw [List.flatten_cons, List.map_append, List.sum_append]
      exact Nat.add_le_add hcluster ih

/-- **The symbols of a text** take no more `totalColumns` than the `breadth` of its characters. -/
theorem totalColumns_le (text : List Char) :
    Symbol.totalColumns (Line.symbols [text]) ≤ (text.map Text.breadth).sum := by
  have hsymbols : Line.symbols [text] = (Text.clusters text).map Symbol.ofCluster :=
    List.flatMap_singleton _ _
  have hle := totalColumns_ofCluster_le (Text.clusters text)
  rwa [Text.clusters_flatten, ← hsymbols] at hle

theorem totalColumns_filter_le (p : Symbol → Bool) (symbols : List Symbol) :
    Symbol.totalColumns (symbols.filter p) ≤ Symbol.totalColumns symbols := by
  induction symbols with
  | nil => exact Nat.le_refl 0
  | cons symbol symbols ih =>
      rw [List.filter_cons]
      split
      · exact Nat.add_le_add_left ih symbol.columns
      · exact ih.trans (Nat.le_add_left _ symbol.columns)

theorem length_fitting_le (room width : Nat) (symbols : List Symbol) :
    (fitting room width symbols).length ≤ symbols.length := by
  induction symbols generalizing room with
  | nil => exact Nat.le_refl 0
  | cons symbol symbols ih =>
      unfold fitting
      split
      · exact (ih room).trans (Nat.le_succ _)
      split
      · exact Nat.zero_le _
      · exact Nat.succ_le_succ (ih _)

/-- Nothing is cut from symbols if and only if they fit together. -/
theorem fitting_eq_self_iff (hroom : room ≤ width) :
    fitting room width symbols = symbols ↔ Symbol.totalColumns symbols ≤ room := by
  induction symbols generalizing room with
  | nil => exact iff_of_true rfl (Nat.zero_le room)
  | cons symbol symbols ih =>
      have htotal : Symbol.totalColumns (symbol :: symbols) =
          symbol.columns + Symbol.totalColumns symbols := rfl
      unfold fitting
      split
      · -- a symbol that fits no row is missing
        refine iff_of_false (fun h => ?_) (by omega)
        have hle := length_fitting_le room width symbols
        rw [h, List.length_cons] at hle
        omega
      split
      · exact iff_of_false (by simp) (by omega)
      · rw [List.cons.injEq, and_iff_right rfl, ih (by omega), htotal]
        omega

/-- **A line that is `cut` at the edge** is shown in full by `rowsOf` if and only if its symbols fit, line
feeds apart. -/
theorem rowsOf_cut_eq_iff (width : Nat) (line : Line) :
    rowsOf .cut width line = [line.symbols.filter fun symbol => symbol.text ≠ ['\n']] ↔
      Symbol.totalColumns (line.symbols.filter fun symbol => symbol.text ≠ ['\n']) ≤ width := by
  show [fitting width width (line.symbols.filter fun symbol => symbol.text ≠ ['\n'])] = _ ↔ _
  rw [List.cons.injEq, and_iff_left rfl]
  exact fitting_eq_self_iff (Nat.le_refl width)

/-- **What the inputs show.** The first of `displayLines` is `visibleExpression`, an end of the expression, if
there is one, and the longest that leaves a column. `visibleProblem` is the last characters of a word problem,
as many as there are columns beside `problemMark`. With the mark they take no more columns than there are and
those by which characters are wide. The row of `rowsOf` has all of them if and only if their `totalColumns`
fit; and if none of the characters is wide, they fit and the row has all of them. -/
theorem inputs_show_end (session : Session) (problem : List Char) (width : Nat) (hwidth : 2 ≤ width) :
    let expression := session.expression.toList
    let shown := visibleExpression width expression
    let visible := visibleProblem width problem
    let line : Line := [problemMark ++ visible]
    let symbols := line.symbols.filter fun symbol => symbol.text ≠ ['\n']
    (shown <:+ expression ∧ Text.width shown ≤ width - 1 ∧
      (∀ ending, ending <:+ expression → Text.width ending ≤ width - 1 → ending <:+ shown) ∧
      (session.expression.isEmpty = false →
        (displayLines session width).head?.map List.flatten = some shown)) ∧
    (visible <:+ problem ∧ visible.length = min problem.length (width - 2)) ∧
    Text.width (problemMark ++ visible) ≤ width + (visible.map fun c => Text.columns c - 1).sum ∧
    (rowsOf .cut width line = [symbols] ↔ Symbol.totalColumns symbols ≤ width) ∧
    ((∀ c ∈ visible, Text.columns c ≤ 1) →
      Text.width (problemMark ++ visible) ≤ width ∧ rowsOf .cut width line = [symbols]) := by
  intro expression shown visible line symbols
  have hwide := sum_breadth_problem hwidth problem
  have hsymbols : Symbol.totalColumns symbols ≤
      width + (visible.map fun c => Text.columns c - 1).sum :=
    (totalColumns_filter_le _ _).trans ((totalColumns_le _).trans hwide)
  have hproblem := (Text.width_le (problemMark ++ visible)).trans hwide
  refine ⟨⟨endWithin_suffix _ _, width_endWithin_le _ _, fun _ => suffix_endWithin,
    head_displayLines session width⟩, ⟨visibleProblem_suffix _ _, length_visibleProblem _ _⟩, hproblem,
    rowsOf_cut_eq_iff width line, fun hnarrow => ?_⟩
  have hnone : (visible.map fun c => Text.columns c - 1).sum = 0 := by
    refine List.sum_eq_zero_iff_forall_eq_nat.mpr fun n hn => ?_
    obtain ⟨c, hc, rfl⟩ := List.mem_map.mp hn
    exact Nat.sub_eq_zero_of_le (hnarrow c hc)
  rw [hnone, Nat.add_zero] at hproblem hsymbols
  exact ⟨hproblem, (rowsOf_cut_eq_iff width line).mpr hsymbols⟩

/-- Four columns. Of an expression with wide characters two characters are shown; of a word problem with two
wide characters the row has the first; and of one with a mark over a letter it has all that is shown. -/
theorem inputs_show_end_wide :
    let session := Session.empty.append "日本1"
    ((displayLines session 4).head?.map List.flatten = some "本1".toList ∧
      ∀ ending, ending <:+ "日本1".toList → Text.width ending ≤ 3 → ending <:+ "本1".toList) ∧
    (visibleProblem 4 "日本".toList = "日本".toList ∧
      rowsOf .cut 4 [problemMark ++ "日本".toList] = [[⟨['>'], 1⟩, ⟨[' '], 1⟩, ⟨['日'], 2⟩]]) ∧
    Text.width (problemMark ++ visibleProblem 4 "cafe\u0301".toList) ≤ 4 := by
  intro session
  obtain ⟨⟨-, -, hlongest, hdisplay⟩, -, -, -, hnarrow⟩ :=
    inputs_show_end session "cafe\u0301".toList 4 (by decide)
  have hexpression : session.expression.toList = "日本1".toList := by decide +kernel
  have hshown : visibleExpression 4 "日本1".toList = "本1".toList := by decide +kernel
  have hcolumns : (visibleProblem 4 "cafe\u0301".toList).all (Text.columns · ≤ 1) = true := by decide +kernel
  rw [hexpression, hshown] at hlongest hdisplay
  refine ⟨⟨hdisplay (by decide +kernel), hlongest⟩, by decide +kernel, (hnarrow fun c hc => ?_).1⟩
  exact of_decide_eq_true (List.all_eq_true.mp hcolumns c hc)

end

end Calculator.Screen
