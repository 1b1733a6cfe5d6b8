import Calculator.Text.Wrap
import Mathlib

/-!
# `Proofs.Text.Wrapping` — a wrapped text is its words

Behind the lines of a text stands a layout: rows of whole words and words cut into pieces, in the order of
the text. A row takes words for as long as they fit, so the first word of the row behind it would not have
fitted; only a word that fits no row is cut, and a piece takes characters for as long as they fit. That
nothing is lost is then a fact about layouts and has nothing to do with how lines are filled.

How lines are filled is one invariant: an open line holds a row and knows how wide it is. Nothing is
assumed of the widths themselves, so that a word may have none and a character may be wider than a line.

## Contents

* `mem_words`, `flatten_words` — the words of a text
* `spanFitting_append`, `columns_spanFitting_le`, `lt_columns_spanFitting` — the start of a word that fits
* `CutInto`, `cutInto_pieces` — a word and its pieces
* `Stretch`, `Layout` — rows and cut words, and when they are the layout of some words
* `OpenLine.Holds`, `exists_layout_wrapWords` — filling lines
* `wrapBy_lays_out` — the lines of a text
-/

namespace Calculator.Text

/-! ## The words of a text -/

section

variable {text word : List Char}

/-- A word has characters, and none of them is a blank. -/
theorem mem_words (h : word ∈ words text) : word ≠ [] ∧ ∀ c ∈ word, isBlank c = false := by
  induction text using words.induct with
  | case1 => exact absurd h (by simp [words])
  | case2 c rest hblank ih =>
      rw [words, if_pos hblank] at h
      exact ih h
  | case3 c rest hblank ih =>
      rw [words, if_neg hblank] at h
      rcases List.mem_cons.mp h with rfl | h
      · refine ⟨List.cons_ne_nil _ _, ?_⟩
        intro d hd
        rcases List.mem_cons.mp hd with rfl | hd
        · simpa using hblank
        · simpa using List.mem_takeWhile_imp hd
      · exact ih h

/-- **The `words` are the text** without its blanks. -/
theorem flatten_words (text : List Char) :
    (words text).flatten = text.filter fun c => !isBlank c := by
  induction text using words.induct with
  | case1 => simp [words]
  | case2 c rest hblank ih =>
      rw [words, if_pos hblank, ih, List.filter_cons_of_neg (by simp [hblank])]
  | case3 c rest hblank ih =>
      have hrun : (rest.takeWhile fun d => !isBlank d).filter (fun d => !isBlank d) =
          rest.takeWhile fun d => !isBlank d :=
        List.filter_eq_self.mpr fun _ hd => List.mem_takeWhile_imp (p := fun d => !isBlank d) hd
      rw [words, if_neg hblank, List.flatten_cons, ih, List.filter_cons_of_pos (by simp [hblank]),
        List.cons_append]
      congr 1
      calc (rest.takeWhile fun d => !isBlank d) ++
            (rest.dropWhile fun d => !isBlank d).filter (fun d => !isBlank d)
          = ((rest.takeWhile fun d => !isBlank d) ++
              rest.dropWhile fun d => !isBlank d).filter (fun d => !isBlank d) := by
            rw [List.filter_append, hrun]
        _ = rest.filter fun d => !isBlank d := by rw [List.takeWhile_append_dropWhile]

end

/-! ## Cutting a word -/

/-- The columns of a piece of a word, character by character. -/
def Gauge.columns (gauge : Gauge) (piece : List Char) : Nat := (piece.map gauge.cutColumns).sum

/-- A word and the pieces that it is cut into. A piece fits unless it is a single character, and the first
character of the piece behind it would not have fitted. -/
structure CutInto (gauge : Gauge) (width : Nat) (word : List Char) (pieces : List (List Char)) :
    Prop where
  flatten_eq : pieces.flatten = word
  ne_nil : ∀ piece ∈ pieces, piece ≠ []
  fits : ∀ piece ∈ pieces, piece.length = 1 ∨ gauge.columns piece ≤ width
  full : pieces.IsChain fun piece next => ∀ c ∈ next.head?, width < gauge.columns (piece ++ [c])

section

variable {gauge : Gauge} {width room : Nat} {c : Char} {word : List Char}

@[simp] theorem Gauge.columns_nil : gauge.columns [] = 0 := rfl

@[simp] theorem Gauge.columns_cons (c : Char) (piece : List Char) :
    gauge.columns (c :: piece) = gauge.cutColumns c + gauge.columns piece := by
  simp [Gauge.columns]

@[simp] theorem Gauge.columns_append (piece other : List Char) :
    gauge.columns (piece ++ other) = gauge.columns piece + gauge.columns other := by
  simp [Gauge.columns]

theorem spanFitting_append (gauge : Gauge) (room : Nat) (word : List Char) :
    (spanFitting gauge room word).1 ++ (spanFitting gauge room word).2 = word := by
  induction word generalizing room with
  | nil => rfl
  | cons c rest ih =>
      simp only [spanFitting]
      split
      · rfl
      · rw [List.cons_append, ih]

theorem columns_spanFitting_le (gauge : Gauge) (room : Nat) (word : List Char) :
    gauge.columns (spanFitting gauge room word).1 ≤ room := by
  induction word generalizing room with
  | nil => simp [spanFitting]
  | cons c rest ih =>
      simp only [spanFitting]
      split
      · simp
      · have hrest := ih (room - gauge.cutColumns c)
        simp only [Gauge.columns_cons]
        omega

theorem lt_columns_spanFitting (gauge : Gauge) (room : Nat) (word : List Char) :
    ∀ c ∈ (spanFitting gauge room word).2.head?,
      room < gauge.columns ((spanFitting gauge room word).1 ++ [c]) := by
  induction word generalizing room with
  | nil => simp [spanFitting]
  | cons d rest ih =>
      simp only [spanFitting]
      split
      · simpa using ‹_›
      · intro c hc
        have hrest := ih (room - gauge.cutColumns d) c hc
        simp only [List.cons_append, Gauge.columns_cons]
        omega

theorem pieces_wide (h : width < gauge.cutColumns c) :
    pieces gauge width (c :: word) = [c] :: pieces gauge width word := by
  rw [pieces, if_pos h]

theorem pieces_fitting (h : ¬ width < gauge.cutColumns c) :
    pieces gauge width (c :: word) =
      (c :: (spanFitting gauge (width - gauge.cutColumns c) word).1) ::
        pieces gauge width (spanFitting gauge (width - gauge.cutColumns c) word).2 := by
  rw [pieces, if_neg h]

/-- The first piece begins with the first character. -/
theorem head?_of_mem_head?_pieces {piece : List Char}
    (h : piece ∈ (pieces gauge width word).head?) : piece.head? = word.head? := by
  cases word with
  | nil => exact absurd h (by simp [pieces])
  | cons c rest =>
      by_cases hwide : width < gauge.cutColumns c
      · rw [pieces_wide hwide] at h
        obtain rfl := Option.some.inj h
        rfl
      · rw [pieces_fitting hwide] at h
        obtain rfl := Option.some.inj h
        rfl

/-- **A word falls into `pieces`** that fit as far as they can (`CutInto`). -/
theorem cutInto_pieces (gauge : Gauge) (width : Nat) (word : List Char) :
    CutInto gauge width word (pieces gauge width word) := by
  induction word using pieces.induct gauge width with
  | case1 =>
      rw [pieces]
      exact ⟨rfl, by simp, by simp, .nil⟩
  | case2 c rest hwide ih =>
      rw [pieces_wide hwide]
      refine ⟨?_, ?_, ?_, ?_⟩
      · rw [List.flatten_cons, ih.flatten_eq, List.singleton_append]
      · simpa using ih.ne_nil
      · simpa using ih.fits
      · refine List.isChain_cons.mpr ⟨?_, ih.full⟩
        intro next _ d _
        -- the character alone is already too wide
        simp only [Gauge.columns_append, Gauge.columns_cons, Gauge.columns_nil]
        omega
  | case3 c rest hwide ih =>
      have hle := columns_spanFitting_le gauge (width - gauge.cutColumns c) rest
      rw [pieces_fitting hwide]
      refine ⟨?_, ?_, ?_, ?_⟩
      · rw [List.flatten_cons, ih.flatten_eq, List.cons_append, spanFitting_append]
      · simpa using ih.ne_nil
      · intro piece hpiece
        rcases List.mem_cons.mp hpiece with rfl | hpiece
        · right
          simp only [Gauge.columns_cons]
          omega
        · exact ih.fits piece hpiece
      · refine List.isChain_cons.mpr ⟨?_, ih.full⟩
        intro next hnext d hd
        rw [head?_of_mem_head?_pieces hnext] at hd
        have hlt := lt_columns_spanFitting gauge (width - gauge.cutColumns c) rest d hd
        simp only [List.cons_append, Gauge.columns_cons]
        omega

end

/-! ## Layouts -/

/-- What stands on lines of its own: a row of words, or the pieces of one word. -/
inductive Stretch where
  | row (words : List (List Char))
  | cut (word : List Char) (pieces : List (List Char))

/-- The columns of a row, with one space between its words. -/
def Gauge.rowColumns (gauge : Gauge) (row : List (List Char)) : Nat :=
  (row.map gauge.word).sum + (row.length - 1)

namespace Stretch

/-- The words of a stretch. -/
def words : Stretch → List (List Char)
  | .row words => words
  | .cut word _ => [word]

/-- The lines of a stretch. -/
def lines : Stretch → List (List Char)
  | .row words => [[' '].intercalate words]
  | .cut _ pieces => pieces

/-- The words of a row fit on its line, and a word is cut only if it fits on none. -/
inductive Fits (gauge : Gauge) (width : Nat) : Stretch → Prop
  | row {row : List (List Char)} (ne_nil : row ≠ []) (le : gauge.rowColumns row ≤ width) :
      Fits gauge width (.row row)
  | cut {word : List Char} {pieces : List (List Char)} (lt : width < gauge.word word)
      (ne_nil : pieces ≠ []) (cutInto : CutInto gauge width word pieces) :
      Fits gauge width (.cut word pieces)

/-- A row that another row follows has no room for the first word of that one. -/
def Full (gauge : Gauge) (width : Nat) : Stretch → Stretch → Prop
  | .row words, .row (word :: _) => width < gauge.rowColumns (words ++ [word])
  | _, _ => True

end Stretch

/-- A layout of words: they stand in their order on stretches that fit, and a new row begins only where a
word has no room on the row in front of it. -/
structure Layout (gauge : Gauge) (width : Nat) (words : List (List Char)) (layout : List Stretch) :
    Prop where
  words_eq : layout.flatMap Stretch.words = words
  fits : ∀ stretch ∈ layout, stretch.Fits gauge width
  full : layout.IsChain (Stretch.Full gauge width)

section

variable {gauge : Gauge} {width : Nat} {word : List Char} {row rest : List (List Char)}
  {stretch : Stretch} {layout : List Stretch} {line : OpenLine}

theorem intercalate_append_singleton (h : row ≠ []) (word : List Char) :
    [' '].intercalate (row ++ [word]) = [' '].intercalate row ++ ' ' :: word := by
  induction row with
  | nil => exact absurd rfl h
  | cons first row ih =>
      cases row with
      | nil => simp [List.intercalate_cons_cons]
      | cons second row =>
          rw [List.cons_append, List.cons_append, List.intercalate_cons_cons, ← List.cons_append,
            ih (List.cons_ne_nil _ _), List.intercalate_cons_cons, List.append_assoc,
            List.append_assoc, List.append_assoc]

theorem intercalate_ne_nil (hrow : row ≠ []) (h : ∀ word ∈ row, word ≠ []) :
    [' '].intercalate row ≠ [] := by
  obtain ⟨first, row, rfl⟩ := List.exists_cons_of_ne_nil hrow
  cases row with
  | nil => simpa using h first List.mem_cons_self
  | cons second row => simp [List.intercalate_cons_cons]

theorem filter_intercalate (h : ∀ word ∈ row, ∀ c ∈ word, isBlank c = false) :
    ([' '].intercalate row).filter (fun c => !isBlank c) = row.flatten := by
  have hword : ∀ word ∈ row, word.filter (fun c => !isBlank c) = word := by
    intro word hmem
    exact List.filter_eq_self.mpr fun c hc => by simp [h word hmem c hc]
  induction row with
  | nil => rfl
  | cons first row ih =>
      have hfirst := hword first List.mem_cons_self
      cases row with
      | nil => simpa using hfirst
      | cons second row =>
          have hrest := ih (fun word hmem => h word (List.mem_cons_of_mem first hmem))
            fun word hmem => hword word (List.mem_cons_of_mem first hmem)
          rw [List.intercalate_cons_cons, List.filter_append, List.filter_append, hfirst, hrest,
            List.filter_singleton, List.flatten_cons]
          simp [show isBlank ' ' = true from by decide]

/-- The lines of a stretch have characters. -/
theorem Stretch.Fits.lines_ne_nil (h : stretch.Fits gauge width)
    (hwords : ∀ word ∈ stretch.words, word ≠ []) : ∀ line ∈ stretch.lines, line ≠ [] := by
  intro line hline
  cases h with
  | row hne hle =>
      obtain rfl := List.mem_singleton.mp hline
      exact intercalate_ne_nil hne hwords
  | cut hlt hne hcut => exact hcut.ne_nil line hline

/-- A stretch shows its words and, besides them, only blanks. -/
theorem Stretch.Fits.filter_lines (h : stretch.Fits gauge width)
    (hwords : ∀ word ∈ stretch.words, ∀ c ∈ word, isBlank c = false) :
    stretch.lines.flatten.filter (fun c => !isBlank c) = stretch.words.flatten := by
  cases h with
  | row hne hle =>
      rw [lines, words, List.flatten_singleton]
      exact filter_intercalate hwords
  | @cut word pieces hlt hne hcut =>
      have hword : ∀ c ∈ word, isBlank c = false := hwords word List.mem_cons_self
      rw [lines, words, hcut.flatten_eq, List.flatten_singleton]
      exact List.filter_eq_self.mpr fun c hc => by simp [hword c hc]

theorem layout_nil : Layout gauge width [] [] := ⟨rfl, by simp, .nil⟩

/-- A stretch in front of a layout. -/
theorem Layout.cons (h : Layout gauge width rest layout) (hfits : stretch.Fits gauge width)
    (hfull : ∀ next ∈ layout.head?, stretch.Full gauge width next) :
    Layout gauge width (stretch.words ++ rest) (stretch :: layout) := by
  refine ⟨?_, ?_, List.isChain_cons.mpr ⟨hfull, h.full⟩⟩
  · rw [List.flatMap_cons, h.words_eq]
  · intro other hother
    rcases List.mem_cons.mp hother with rfl | hother
    · exact hfits
    · exact h.fits other hother

/-- What follows a row that has no room for the next word. -/
theorem Layout.full_of_lt (h : Layout gauge width (word :: rest) layout)
    (hlt : width < gauge.rowColumns (row ++ [word])) :
    ∀ next ∈ layout.head?, (Stretch.row row).Full gauge width next := by
  intro next hnext
  obtain ⟨others, rfl⟩ := List.head?_eq_some_iff.mp hnext
  have hwords := h.words_eq
  rw [List.flatMap_cons] at hwords
  cases next with
  | cut other pieces => trivial
  | row words =>
      cases words with
      | nil => trivial
      | cons first words =>
          -- the first word of the row is the next word
          obtain rfl := (List.cons.inj hwords).1
          exact hlt

/-! ## Filling lines -/

/-- An open line holds the words of a row and knows how wide they are. -/
structure OpenLine.Holds (gauge : Gauge) (line : OpenLine) (row : List (List Char)) : Prop where
  text_eq : line.text = [' '].intercalate row
  columns_eq : line.columns = gauge.rowColumns row

theorem OpenLine.holds_empty (gauge : Gauge) : Holds gauge .empty [] := ⟨rfl, rfl⟩

theorem OpenLine.Holds.text_eq_nil_iff (h : line.Holds gauge row) (hrow : ∀ word ∈ row, word ≠ []) :
    line.text = [] ↔ row = [] := by
  rw [h.text_eq]
  constructor
  · intro hnil
    by_contra hne
    exact intercalate_ne_nil hne hrow hnil
  · rintro rfl
    rfl

theorem rowColumns_append_singleton (h : row ≠ []) (word : List Char) :
    gauge.rowColumns (row ++ [word]) = gauge.rowColumns row + 1 + gauge.word word := by
  have hlength := List.length_pos_iff.mpr h
  simp only [Gauge.rowColumns, List.map_append, List.map_singleton, List.sum_append,
    List.sum_singleton, List.length_append, List.length_singleton]
  omega

theorem OpenLine.Holds.add (h : line.Holds gauge row) (hrow : ∀ word ∈ row, word ≠ [])
    (word : List Char) : (line.add gauge word).Holds gauge (row ++ [word]) := by
  have hiff := h.text_eq_nil_iff hrow
  unfold OpenLine.add
  by_cases hnil : row = []
  · subst hnil
    rw [if_pos (hiff.mpr rfl)]
    constructor
    · simp
    · simp [h.columns_eq, Gauge.rowColumns]
  · rw [if_neg fun htext => hnil (hiff.mp htext)]
    constructor
    · rw [h.text_eq, intercalate_append_singleton hnil]
    · rw [h.columns_eq, rowColumns_append_singleton hnil]

/-- Closing a line puts its row, if there is one, in front of a layout. -/
theorem OpenLine.Holds.closed (h : line.Holds gauge row) (hrow : ∀ word ∈ row, word ≠ [])
    (hle : gauge.rowColumns row ≤ width) (hlayout : Layout gauge width rest layout)
    (hfull : ∀ next ∈ layout.head?, (Stretch.row row).Full gauge width next) :
    ∃ layout', Layout gauge width (row ++ rest) layout' ∧
      line.closed ++ layout.flatMap Stretch.lines = layout'.flatMap Stretch.lines := by
  have hiff := h.text_eq_nil_iff hrow
  unfold OpenLine.closed
  by_cases hnil : row = []
  · rw [if_pos (hiff.mpr hnil)]
    subst hnil
    exact ⟨layout, hlayout, rfl⟩
  · rw [if_neg fun htext => hnil (hiff.mp htext), h.text_eq]
    exact ⟨.row row :: layout, hlayout.cons (.row hnil hle) hfull, rfl⟩

/-- **Filling lines**: what `wrapWords` makes of an open line and the words behind it has a `Layout`, whatever
row the line holds. -/
theorem exists_layout_wrapWords (h : line.Holds gauge row) (hle : gauge.rowColumns row ≤ width)
    (hrow : ∀ word ∈ row, word ≠ []) (hrest : ∀ word ∈ rest, word ≠ []) :
    ∃ layout, Layout gauge width (row ++ rest) layout ∧
      wrapWords gauge width line rest = layout.flatMap Stretch.lines := by
  induction rest generalizing line row with
  | nil =>
      obtain ⟨layout, hlayout, hlines⟩ := h.closed hrow hle layout_nil (by simp)
      refine ⟨layout, hlayout, ?_⟩
      rw [wrapWords, ← hlines, List.flatMap_nil, List.append_nil]
  | cons word rest ih =>
      have hword : word ≠ [] := hrest word List.mem_cons_self
      have hothers : ∀ other ∈ rest, other ≠ [] :=
        fun other hmem => hrest other (List.mem_cons_of_mem word hmem)
      have hiff := h.text_eq_nil_iff hrow
      rw [wrapWords]
      by_cases hwide : width < gauge.word word
      · -- the row ends, and the word is cut
        obtain ⟨layout, hlayout, hlines⟩ :=
          ih (OpenLine.holds_empty gauge) (Nat.zero_le width) (by simp) hothers
        have hcut := cutInto_pieces gauge width word
        have hne : pieces gauge width word ≠ [] := by
          intro hnil
          exact hword (by rw [← hcut.flatten_eq, hnil, List.flatten_nil])
        have hbehind : Layout gauge width (word :: rest)
            (.cut word (pieces gauge width word) :: layout) :=
          hlayout.cons (.cut hwide hne hcut) (by simp [Stretch.Full])
        obtain ⟨layout', hlayout', hlines'⟩ :=
          h.closed hrow hle hbehind (by simp [Stretch.Full])
        refine ⟨layout', hlayout', ?_⟩
        rw [if_pos hwide, hlines, ← hlines', List.flatMap_cons, List.append_assoc]
        rfl
      · have hsingle : gauge.rowColumns [word] ≤ width := by
          simpa [Gauge.rowColumns] using hwide
        rw [if_neg hwide]
        by_cases hbreak : width < line.columns + gauge.word word + 1 ∧ line.text ≠ []
        · -- the row is full, and the word begins the next one
          have hnil : row ≠ [] := fun hnil => hbreak.2 (hiff.mpr hnil)
          have hlt : width < gauge.rowColumns (row ++ [word]) := by
            rw [rowColumns_append_singleton hnil, ← h.columns_eq]
            omega
          obtain ⟨layout, hlayout, hlines⟩ :=
            ih ((OpenLine.holds_empty gauge).add (by simp) word) hsingle (by simpa using hword) hothers
          obtain ⟨layout', hlayout', hlines'⟩ := h.closed hrow hle hlayout (hlayout.full_of_lt hlt)
          exact ⟨layout', hlayout', by rw [if_pos hbreak, hlines, hlines']⟩
        · -- the word joins the row
          have hroom : gauge.rowColumns (row ++ [word]) ≤ width := by
            by_cases hnil : row = []
            · subst hnil
              exact hsingle
            · have hfits : ¬ width < line.columns + gauge.word word + 1 :=
                fun hlt => hbreak ⟨hlt, fun htext => hnil (hiff.mp htext)⟩
              rw [rowColumns_append_singleton hnil, ← h.columns_eq]
              omega
          have hall : ∀ other ∈ row ++ [word], other ≠ [] := by
            intro other hmem
            rcases List.mem_append.mp hmem with hmem | hmem
            · exact hrow other hmem
            · exact hrest other (List.mem_singleton.mp hmem ▸ List.mem_cons_self)
          obtain ⟨layout, hlayout, hlines⟩ := ih (h.add hrow word) hroom hall hothers
          rw [List.append_assoc, List.singleton_append] at hlayout
          exact ⟨layout, hlayout, by rw [if_neg hbreak, hlines]⟩

/-! ## What the lines show -/

/-- Nothing is lost by a layout, and nothing is added but blanks. -/
theorem Layout.filter_lines (h : Layout gauge width rest layout)
    (hwords : ∀ word ∈ rest, ∀ c ∈ word, isBlank c = false) :
    (layout.flatMap Stretch.lines).flatten.filter (fun c => !isBlank c) = rest.flatten := by
  obtain ⟨rfl, hfits, -⟩ := h
  induction layout with
  | nil => rfl
  | cons stretch layout ih =>
      rw [List.flatMap_cons] at hwords
      have hstretch := (hfits stretch List.mem_cons_self).filter_lines
        fun word hmem => hwords word (List.mem_append_left _ hmem)
      have hbehind := ih (fun other hother => hfits other (List.mem_cons_of_mem stretch hother))
        fun word hmem => hwords word (List.mem_append_right _ hmem)
      rw [List.flatMap_cons, List.flatten_append, List.filter_append, hstretch, hbehind,
        List.flatMap_cons, List.flatten_append]

theorem Layout.lines_ne_nil (h : Layout gauge width rest layout)
    (hwords : ∀ word ∈ rest, word ≠ []) : ∀ line ∈ layout.flatMap Stretch.lines, line ≠ [] := by
  intro line hline
  obtain ⟨stretch, hstretch, hline⟩ := List.mem_flatMap.mp hline
  refine (h.fits stretch hstretch).lines_ne_nil ?_ line hline
  intro word hmem
  refine hwords word ?_
  rw [← h.words_eq]
  exact List.mem_flatMap.mpr ⟨stretch, hstretch, hmem⟩

/-- **The lines of a text.** `wrapBy` gives the lines of a `Layout` of the `words` of the text, for any
`gauge` of words and characters. No line is empty, and together they show every character of the text that is
not blank. -/
theorem wrapBy_lays_out (gauge : Gauge) {width : Nat} (hwidth : 0 < width) (text : List Char) :
    ∃ layout, Layout gauge width (words text) layout ∧
      wrapBy gauge width text = layout.flatMap Stretch.lines ∧
      (∀ line ∈ wrapBy gauge width text, line ≠ []) ∧
      (wrapBy gauge width text).flatten.filter (fun c => !isBlank c) =
        text.filter fun c => !isBlank c := by
  have hwords : ∀ word ∈ words text, word ≠ [] ∧ ∀ c ∈ word, isBlank c = false :=
    fun word hmem => mem_words hmem
  obtain ⟨layout, hlayout, hlines⟩ := exists_layout_wrapWords (OpenLine.holds_empty gauge)
    (Nat.zero_le width) (by simp) fun word hmem => (hwords word hmem).1
  have hwrap : wrapBy gauge width text = layout.flatMap Stretch.lines := by
    rw [wrapBy, if_neg hwidth.ne', hlines]
  refine ⟨layout, hlayout, hwrap, ?_, ?_⟩
  · rw [hwrap]
    exact hlayout.lines_ne_nil fun word hmem => (hwords word hmem).1
  · rw [hwrap, hlayout.filter_lines fun word hmem => (hwords word hmem).2, List.nil_append,
      flatten_words]

/-- A terminal breaks a text in front of a word that has no room and cuts a word that no line holds. A
character that is wider than the line stands alone. -/
theorem wrapBy_lays_out_terminal :
    let text := " ab\tc  d efgh漢i".toList
    0 < 3 ∧ wrap 3 text = ["ab".toList, "c d".toList, "efg".toList, "h漢".toList, "i".toList] ∧
      wrap 1 "漢i".toList = ["漢".toList, "i".toList] ∧
      ∃ layout, Layout .terminal 3 (words text) layout ∧
        wrap 3 text = layout.flatMap Stretch.lines := by
  intro text
  have hwidth : 0 < 3 := by decide
  obtain ⟨layout, hlayout, hlines, -, -⟩ := wrapBy_lays_out .terminal hwidth text
  exact ⟨hwidth, by decide +kernel, by decide +kernel, layout, hlayout, hlines⟩

end

end Calculator.Text
