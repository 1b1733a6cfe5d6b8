import Calculator.Analysis.Answer
import Calculator.Proofs.Expression.Cutting

/-!
# `Proofs.Analysis.Fence` — a code fence around an answer makes no difference

A model asked for a document may give it in a block of code: three backticks, perhaps with the word `json`
behind them, the document, and three backticks again, with any blanks between and around these. `Unfenced`
says what is left of a text by what stands where, and `unfence` computes it. What is left when a fence is taken
off is what is left of the document without one, so whatever reads it gives the same. The marks of the fence
have no blanks in them, and that decides where they can stand: a mark at the end of a text with blanks around
it is a mark at the end of the text itself (`Text.suffix_trim`), and none stands behind blanks
(`Text.not_suffix_append_blanks`). So the mark that `dropEnds` takes off repeatedly goes once if it was put
there, and not at all if the block was never closed.

## Contents

* `Text.trim_append_blanks`, `Text.suffix_trim` — blanks around a text, and words without blanks at its end
* `Unfenced`, `unfenced_iff` — what is left of a text
* `Fenced`, `Fenced.unfence_eq` — a text in a fence, and what is left without it
* `Analysis.ofTextBy` — the explanation in a text, whatever reads the document in it
* `fence_makes_no_difference` — the outcome with a fence and without
-/

namespace Calculator

namespace Text

variable {blanks word text rest : List Char}

/-! ## Blanks around a text -/

theorem trimEnd_append_blanks (h : ∀ c ∈ blanks, isBlank c = true) (text : List Char) :
    trimEnd (text ++ blanks) = trimEnd text := by
  unfold trimEnd
  rw [List.reverse_append, List.dropWhile_append_of_pos fun c hc => h c (List.mem_reverse.mp hc)]

theorem trim_blanks_append (h : ∀ c ∈ blanks, isBlank c = true) (text : List Char) :
    trim (blanks ++ text) = trim text := by
  unfold trim trimStart
  rw [List.dropWhile_append_of_pos h]

theorem trim_append_blanks (h : ∀ c ∈ blanks, isBlank c = true) (text : List Char) :
    trim (text ++ blanks) = trim text := by
  unfold trim trimStart
  rw [List.dropWhile_append]
  split
  · -- a blank text in front of blanks
    rename_i hempty
    rw [List.isEmpty_iff.mp hempty, List.dropWhile_eq_nil_iff.mpr h]
  · exact trimEnd_append_blanks h _

theorem trimEnd_trimEnd (text : List Char) : trimEnd (trimEnd text) = trimEnd text := by
  obtain ⟨blanks, htext, hblanks⟩ := exists_trimEnd text
  calc trimEnd (trimEnd text) = trimEnd (trimEnd text ++ blanks) :=
        (trimEnd_append_blanks hblanks _).symm
    _ = trimEnd text := by rw [← htext]

theorem trim_trimEnd (text : List Char) : trim (trimEnd text) = trim text := by
  obtain ⟨blanks, htext, hblanks⟩ := exists_trimEnd text
  calc trim (trimEnd text) = trim (trimEnd text ++ blanks) := (trim_append_blanks hblanks _).symm
    _ = trim text := by rw [← htext]

theorem prefix_trimEnd (text : List Char) : trimEnd text <+: text := by
  obtain ⟨blanks, htext, -⟩ := exists_trimEnd text
  exact ⟨blanks, htext.symm⟩

theorem trim_trim (text : List Char) : trim (trim text) = trim text := by
  obtain ⟨before, after, htext, hbefore, hafter⟩ := exists_trim text
  calc trim (trim text) = trim (before ++ trim text ++ after) := by
        rw [trim_append_blanks hafter, trim_blanks_append hbefore]
    _ = trim text := by rw [← htext]

/-- A text that `trimEnd` leaves as it is has no blanks at its end. -/
theorem eq_nil_of_trimEnd_eq (h : ∀ c ∈ blanks, isBlank c = true)
    (hbare : trimEnd (text ++ blanks) = text ++ blanks) : blanks = [] := by
  have hlength := (prefix_trimEnd text).length_le
  rw [← trimEnd_append_blanks h text, hbare, List.length_append] at hlength
  exact List.eq_nil_of_length_eq_zero (by omega)

/-! ## Words without blanks -/

theorem dropWhile_of_solid (h : ∀ c ∈ word, isBlank c = false) (hne : word ≠ []) (rest : List Char) :
    (word ++ rest).dropWhile isBlank = word ++ rest := by
  obtain ⟨first, others, rfl⟩ := List.exists_cons_of_ne_nil hne
  rw [List.cons_append, List.dropWhile_cons_of_neg (by simp [h first List.mem_cons_self])]

theorem trimStart_of_solid (h : ∀ c ∈ word, isBlank c = false) (hne : word ≠ []) (rest : List Char) :
    trimStart (word ++ rest) = word ++ rest :=
  dropWhile_of_solid h hne rest

theorem trimEnd_of_solid (h : ∀ c ∈ word, isBlank c = false) (hne : word ≠ []) (text : List Char) :
    trimEnd (text ++ word) = text ++ word := by
  have hreverse : ∀ c ∈ word.reverse, isBlank c = false := fun c hc => h c (List.mem_reverse.mp hc)
  unfold trimEnd
  rw [List.reverse_append, dropWhile_of_solid hreverse (by simpa using hne), ← List.reverse_append,
    List.reverse_reverse]

/-- The blanks at the end of a text do not reach into a word without blanks. -/
theorem trimEnd_solid_append (h : ∀ c ∈ word, isBlank c = false) (hne : word ≠ []) (rest : List Char) :
    trimEnd (word ++ rest) = word ++ trimEnd rest := by
  obtain ⟨blanks, hrest, hblanks⟩ := exists_trimEnd rest
  by_cases hempty : trimEnd rest = []
  · rw [hempty, List.nil_append] at hrest
    rw [hempty, hrest, trimEnd_append_blanks hblanks, List.append_nil]
    exact trimEnd_of_solid h hne []
  · -- the text ends where its own last character that is not blank stands
    have hreverse : rest.reverse.dropWhile isBlank ≠ [] := fun hnil =>
      hempty (List.reverse_eq_nil_iff.mpr hnil)
    unfold trimEnd
    rw [List.reverse_append, List.dropWhile_append, if_neg (by simpa using hreverse),
      List.reverse_append, List.reverse_reverse]

/-- The blanks at the start of a text do not reach into a word without blanks. -/
theorem dropWhile_append_solid (h : ∀ c ∈ word, isBlank c = false) (hne : word ≠ []) (front : List Char) :
    (front ++ word).dropWhile isBlank = front.dropWhile isBlank ++ word := by
  rw [List.dropWhile_append]
  split
  · rename_i hempty
    rw [List.isEmpty_iff.mp hempty, List.nil_append]
    simpa using dropWhile_of_solid h hne []
  · rfl

/-- **A word without blanks at the end** of a text is at the end of `trim text`. -/
theorem suffix_trim (h : ∀ c ∈ word, isBlank c = false) (hend : word <:+ text) : word <:+ trim text := by
  by_cases hne : word = []
  · rw [hne]
    exact List.nil_suffix
  · obtain ⟨front, rfl⟩ := hend
    unfold trim trimStart
    rw [dropWhile_append_solid h hne, trimEnd_of_solid h hne]
    exact List.suffix_append _ _

/-- A word without blanks is not at the end of a text with blanks behind it. -/
theorem not_suffix_append_blanks (h : ∀ c ∈ word, isBlank c = false) (hne : word ≠ [])
    (hblanks : ∀ c ∈ blanks, isBlank c = true) (hsome : blanks ≠ []) (text : List Char) :
    ¬word <:+ text ++ blanks := by
  rintro ⟨front, hfront⟩
  have hbare : trimEnd (text ++ blanks) = text ++ blanks := by
    rw [← hfront, trimEnd_of_solid h hne]
  exact hsome (eq_nil_of_trimEnd_eq hblanks hbare)

/-- A word at the start of a text is not made up by what follows if that has none of its characters. -/
theorem prefix_of_prefix_append (h : ∀ c ∈ rest, c ∉ word) (hstart : word <+: text ++ rest) :
    word <+: text := by
  rcases List.prefix_or_prefix_of_prefix hstart (List.prefix_append text rest) with hword | htext
  · exact hword
  · obtain ⟨others, rfl⟩ := htext
    cases others with
    | nil => exact ⟨[], List.append_nil _ |>.trans (List.append_nil _)⟩
    | cons c others =>
        have hmem : c ∈ rest := ((List.prefix_append_right_inj text).mp hstart).mem List.mem_cons_self
        exact absurd (List.mem_append_right text List.mem_cons_self) (h c hmem)

end Text

/-! ## What is left of a text -/

/-- **A text and what is left of it without its fence and the blanks around it.** It is the relation that
`unfence` computes, by what stands where (`unfenced_iff`). A text without a fence at its start is a `plain`
document. A `fenced` one has the fence in front, perhaps with the word `json` behind it, and any number of
marks that close it. No mark is left at the end of the `document`, unless there are blanks between the two. -/
inductive Unfenced : List Char → List Char → Prop
  | plain {before document behind : List Char}
      (before_blank : ∀ c ∈ before, Text.isBlank c = true) (behind_blank : ∀ c ∈ behind, Text.isBlank c = true)
      (bare : Text.trim document = document) (not_opening : ¬fence <+: document) :
      Unfenced (before ++ document ++ behind) document
  | fenced {before tag gap document after behind : List Char} {marks : Nat}
      (before_blank : ∀ c ∈ before, Text.isBlank c = true) (gap_blank : ∀ c ∈ gap, Text.isBlank c = true)
      (after_blank : ∀ c ∈ after, Text.isBlank c = true) (behind_blank : ∀ c ∈ behind, Text.isBlank c = true)
      (bare : Text.trim document = document)
      (tag_eq : tag = "json".toList ∨ tag = [] ∧ ¬"json".toList <+: gap ++ document)
      (closed : marks = 0 → after = []) (not_closing : after = [] → ¬fence <:+ document) :
      Unfenced (before ++ fence ++ tag ++ gap ++ document ++ after ++
        (List.replicate marks fence).flatten ++ behind) document

section

variable {before tag gap text document after closing behind : List Char} {marks : Nat}

theorem isBlank_of_mem_fence : ∀ c ∈ fence, Text.isBlank c = false :=
  List.forall_mem_iff_forall_getElem.mpr (by decide)

theorem isBlank_of_mem_tag : ∀ c ∈ "json".toList, Text.isBlank c = false :=
  List.forall_mem_iff_forall_getElem.mpr (by decide)

theorem not_mem_tag_of_mem_fence : ∀ c ∈ fence, c ∉ "json".toList :=
  List.forall_mem_iff_forall_getElem.mpr (by decide)

theorem fence_ne_nil : fence ≠ [] := by decide

theorem mem_fence_of_mem_marks : ∀ c ∈ (List.replicate marks fence).flatten, c ∈ fence := by
  intro c hc
  obtain ⟨mark, hmark, hc⟩ := List.mem_flatten.mp hc
  rwa [List.eq_of_mem_replicate hmark] at hc

/-- A text that does not begin with a fence is only trimmed. -/
theorem unfence_of_not_opening (h : ¬fence <+: Text.trim text) : unfence text = Text.trim text := by
  have htagged : ¬fence ++ "json".toList <+: Text.trim text := fun hprefix =>
    h ((List.prefix_append fence _).trans hprefix)
  unfold unfence
  simp only [Text.afterStart?_eq_none htagged, Text.afterStart?_eq_none h, Option.or_none]

/-- What is trimmed off a text with a fence at its start is in front of the fence and at the end of what
follows it. -/
theorem trim_opened (hbefore : ∀ c ∈ before, Text.isBlank c = true)
    (htag : ∀ c ∈ tag, Text.isBlank c = false) (text : List Char) :
    Text.trim (before ++ fence ++ tag ++ text) = fence ++ tag ++ Text.trimEnd text := by
  have hsolid : ∀ c ∈ fence ++ tag, Text.isBlank c = false :=
    List.forall_mem_append.mpr ⟨isBlank_of_mem_fence, htag⟩
  have hne : fence ++ tag ≠ [] := List.append_ne_nil_of_left_ne_nil fence_ne_nil tag
  calc Text.trim (before ++ fence ++ tag ++ text) = Text.trim (before ++ ((fence ++ tag) ++ text)) := by
        simp only [List.append_assoc]
    _ = Text.trim ((fence ++ tag) ++ text) := Text.trim_blanks_append hbefore _
    _ = fence ++ tag ++ Text.trimEnd text := by
        rw [Text.trim, Text.trimStart_of_solid hsolid hne, Text.trimEnd_solid_append hsolid hne]

/-- The opening fence is taken off with the word behind it. Without that word, none is made up. -/
theorem afterStart?_opened (htag : tag = "json".toList ∨ tag = [] ∧ ¬"json".toList <+: text) :
    (Text.afterStart? (fence ++ "json".toList) (fence ++ tag ++ text)).or
      (Text.afterStart? fence (fence ++ tag ++ text)) = some text := by
  rcases htag with rfl | ⟨rfl, htag⟩
  · rw [Text.afterStart?_append, Option.some_or]
  · have hnone : ¬fence ++ "json".toList <+: fence ++ text := fun hprefix =>
      htag ((List.prefix_append_right_inj fence).mp hprefix)
    rw [List.append_nil, Text.afterStart?_eq_none hnone, Option.none_or, Text.afterStart?_append]

/-- The word behind a fence is not made up by the blanks and the marks at the end of what follows. -/
theorem not_prefix_tag (hafter : ∀ c ∈ after, Text.isBlank c = true)
    (htag : ¬"json".toList <+: gap ++ document) :
    ¬"json".toList <+:
      Text.trimEnd (gap ++ document ++ after ++ (List.replicate marks fence).flatten) := by
  intro hword
  have hlong := hword.trans (Text.prefix_trimEnd _)
  rw [List.append_assoc (gap ++ document)] at hlong
  refine htag (Text.prefix_of_prefix_append (fun c hc hmem => ?_) hlong)
  rcases List.mem_append.mp hc with hc | hc
  · have hvisible := isBlank_of_mem_tag c hmem
    rw [hafter c hc] at hvisible
    contradiction
  · exact not_mem_tag_of_mem_fence c (mem_fence_of_mem_marks c hc) hmem

/-- Without the marks that close it, the document and the blanks around it are left. -/
theorem trim_dropEnds_closed (hgap : ∀ c ∈ gap, Text.isBlank c = true)
    (hafter : ∀ c ∈ after, Text.isBlank c = true) (hbare : Text.trim document = document)
    (hclosed : marks = 0 → after = []) (hclosing : after = [] → ¬fence <:+ document) :
    Text.trim (Text.dropEnds fence
      (Text.trimEnd (gap ++ document ++ after ++ (List.replicate marks fence).flatten))) = document := by
  have hbody : Text.trim (gap ++ document ++ after) = document := by
    rw [Text.trim_append_blanks hafter, Text.trim_blanks_append hgap, hbare]
  cases marks with
  | zero =>
      obtain rfl := hclosed rfl
      have hopen : ¬fence <:+ Text.trimEnd (gap ++ document ++ []) := by
        intro hsuffix
        have htrim := Text.suffix_trim isBlank_of_mem_fence hsuffix
        rw [Text.trim_trimEnd, hbody] at htrim
        exact hclosing rfl htrim
      rw [List.replicate_zero, List.flatten_nil, List.append_nil (gap ++ document ++ []),
        Text.dropEnds_of_not_suffix hopen, Text.trim_trimEnd, hbody]
  | succ marks =>
      have hend : ¬fence <:+ gap ++ document ++ after := by
        by_cases hnone : after = []
        · intro hsuffix
          have htrim := Text.suffix_trim isBlank_of_mem_fence hsuffix
          rw [hbody] at htrim
          exact hclosing hnone htrim
        · exact Text.not_suffix_append_blanks isBlank_of_mem_fence fence_ne_nil hafter hnone _
      rw [List.replicate_succ', List.flatten_append, List.flatten_singleton, ← List.append_assoc,
        Text.trimEnd_of_solid isBlank_of_mem_fence fence_ne_nil, Text.dropEnds_append fence_ne_nil,
        Text.dropEnds_append_marks fence_ne_nil, Text.dropEnds_of_not_suffix hend, hbody]

theorem Unfenced.unfence_eq (h : Unfenced text document) : unfence text = document := by
  cases h with
  | @plain before _ behind before_blank behind_blank bare not_opening =>
      have htrim : Text.trim (before ++ document ++ behind) = document := by
        rw [Text.trim_append_blanks behind_blank, Text.trim_blanks_append before_blank, bare]
      rw [unfence_of_not_opening (by rwa [htrim]), htrim]
  | @fenced before tag gap _ after behind marks before_blank gap_blank after_blank behind_blank bare tag_eq
      closed not_closing =>
      have hsolid : ∀ c ∈ tag, Text.isBlank c = false := by
        rcases tag_eq with rfl | ⟨rfl, -⟩
        · exact isBlank_of_mem_tag
        · exact fun c hc => absurd hc List.not_mem_nil
      have htrim : Text.trim (before ++ fence ++ tag ++ gap ++ document ++ after ++
          (List.replicate marks fence).flatten ++ behind) =
          fence ++ tag ++
            Text.trimEnd (gap ++ document ++ after ++ (List.replicate marks fence).flatten) := by
        rw [Text.trim_append_blanks behind_blank, ← trim_opened before_blank hsolid]
        simp only [List.append_assoc]
      unfold unfence
      simp only [htrim, afterStart?_opened (tag_eq.imp_right fun h => ⟨h.1, not_prefix_tag after_blank h.2⟩),
        Text.trimEnd_trimEnd, trim_dropEnds_closed gap_blank after_blank bare closed not_closing]

/-- The word behind the fence is there or it is not. -/
theorem exists_tag (text : List Char) : ∃ tag rest, text = tag ++ rest ∧
    (tag = "json".toList ∨ tag = [] ∧ ¬"json".toList <+: rest) := by
  by_cases hword : "json".toList <+: text
  · obtain ⟨rest, rfl⟩ := hword
    exact ⟨_, rest, rfl, .inl rfl⟩
  · exact ⟨[], text, rfl, .inr ⟨rfl, hword⟩⟩

/-- What follows an opening fence falls into the blanks at its end, the marks in front of these, and the
document with the blanks around it. -/
theorem exists_closed (rest : List Char) : ∃ gap document after blanks marks,
    rest = gap ++ document ++ after ++ (List.replicate marks fence).flatten ++ blanks ∧
      (∀ c ∈ gap, Text.isBlank c = true) ∧ (∀ c ∈ after, Text.isBlank c = true) ∧
      (∀ c ∈ blanks, Text.isBlank c = true) ∧ Text.trim document = document ∧
      (marks = 0 → after = []) ∧ (after = [] → ¬fence <:+ document) := by
  obtain ⟨blanks, hrest, hblanks⟩ := Text.exists_trimEnd rest
  obtain ⟨marks, hbody, hend⟩ := Text.exists_dropEnds fence_ne_nil (Text.trimEnd rest)
  obtain ⟨gap, after, hkept, hgap, hafter⟩ := Text.exists_trim (Text.dropEnds fence (Text.trimEnd rest))
  generalize Text.dropEnds fence (Text.trimEnd rest) = kept at hbody hend hkept
  refine ⟨gap, Text.trim kept, after, blanks, marks, ?_, hgap, hafter, hblanks, Text.trim_trim kept, ?_, ?_⟩
  · calc rest = Text.trimEnd rest ++ blanks := hrest
      _ = kept ++ (List.replicate marks fence).flatten ++ blanks := by rw [hbody]
      _ = _ := by rw [← hkept]
  · -- without marks, what is kept ends where the text does
    rintro rfl
    have hbare : Text.trimEnd (gap ++ Text.trim kept ++ after) = gap ++ Text.trim kept ++ after := by
      rw [List.replicate_zero, List.flatten_nil, List.append_nil] at hbody
      rw [← hkept, ← hbody, Text.trimEnd_trimEnd]
    exact Text.eq_nil_of_trimEnd_eq hafter hbare
  · rintro rfl hsuffix
    rw [List.append_nil] at hkept
    exact hend (hkept ▸ hsuffix.trans (List.suffix_append gap _))

/-- Something is left of every text. -/
theorem exists_unfenced (text : List Char) : ∃ document, Unfenced text document := by
  obtain ⟨before, behind, htext, hbefore, hbehind⟩ := Text.exists_trim text
  by_cases hopening : fence <+: Text.trim text
  case neg =>
    have hplain := Unfenced.plain hbefore hbehind (Text.trim_trim text) hopening
    rw [← htext] at hplain
    exact ⟨_, hplain⟩
  obtain ⟨opened, hopened⟩ := hopening
  obtain ⟨tag, rest, rfl, htag⟩ := exists_tag opened
  obtain ⟨gap, document, after, blanks, marks, hparts, hgap, hafter, hblanks, hbare, hclosed, hclosing⟩ :=
    exists_closed rest
  have hword : tag = "json".toList ∨ tag = [] ∧ ¬"json".toList <+: gap ++ document := by
    refine htag.imp_right fun h => ⟨h.1, fun hword => h.2 (hword.trans ?_)⟩
    rw [hparts, List.append_assoc, List.append_assoc]
    exact List.prefix_append _ _
  have hfenced := Unfenced.fenced hbefore hgap hafter (List.forall_mem_append.mpr ⟨hblanks, hbehind⟩) hbare
    hword hclosed hclosing
  refine ⟨document, ?_⟩
  rw [htext, ← hopened, hparts]
  simpa only [List.append_assoc] using hfenced

/-- **What is left of a text**: `unfence` computes `Unfenced`. -/
theorem unfenced_iff : Unfenced text document ↔ unfence text = document := by
  refine ⟨Unfenced.unfence_eq, ?_⟩
  rintro rfl
  obtain ⟨document, h⟩ := exists_unfenced text
  rwa [h.unfence_eq]

/-- Of two marks with a blank between them only the last one is taken off. -/
example : Unfenced "```json []``` ```".toList "[]```".toList := unfenced_iff.mpr (by decide +kernel)

/-! ## A text in a fence -/

/-- **A text in a fence**: `fence` in front, perhaps with the word `json` behind it as the `tag`, and perhaps
a `closing` one. There may be blanks around the text and around the fence. -/
structure Fenced (before tag gap text after closing behind : List Char) : Prop where
  before_blank : ∀ c ∈ before, Text.isBlank c = true
  gap_blank : ∀ c ∈ gap, Text.isBlank c = true
  after_blank : ∀ c ∈ after, Text.isBlank c = true
  behind_blank : ∀ c ∈ behind, Text.isBlank c = true
  not_opening : ¬fence <+: Text.trim text
  not_closing : ¬fence <:+ Text.trim text
  tag_eq : tag = "json".toList ∨ tag = [] ∧ ¬"json".toList <+: gap ++ text
  closing_eq : closing = fence ∨ closing = []

/-- What is left of a text in a fence is what is left of it without. -/
theorem Fenced.unfenced (h : Fenced before tag gap text after closing behind) :
    Unfenced (before ++ fence ++ tag ++ gap ++ text ++ after ++ closing ++ behind) (Text.trim text) := by
  obtain ⟨front, back, htext, hfront, hback⟩ := Text.exists_trim text
  have hgap : ∀ c ∈ gap ++ front, Text.isBlank c = true :=
    List.forall_mem_append.mpr ⟨h.gap_blank, hfront⟩
  have hafter : ∀ c ∈ back ++ after, Text.isBlank c = true :=
    List.forall_mem_append.mpr ⟨hback, h.after_blank⟩
  have htag : tag = "json".toList ∨ tag = [] ∧ ¬"json".toList <+: gap ++ front ++ Text.trim text := by
    refine h.tag_eq.imp_right fun htag => ⟨htag.1, fun hword => htag.2 (hword.trans ⟨back, ?_⟩)⟩
    rw [List.append_assoc, List.append_assoc, ← List.append_assoc front, ← htext]
  have hnot : ¬fence <:+ Text.trim text := h.not_closing
  have hparts : before ++ fence ++ tag ++ gap ++ text ++ after ++ closing ++ behind =
      before ++ fence ++ tag ++ gap ++ (front ++ Text.trim text ++ back) ++ after ++ closing ++ behind := by
    rw [← htext]
  rw [hparts]
  rcases h.closing_eq with rfl | rfl
  · have hclosed := @Unfenced.fenced before tag (gap ++ front) (Text.trim text) (back ++ after) behind 1
      h.before_blank hgap hafter h.behind_blank (Text.trim_trim text) htag nofun fun _ => hnot
    simpa only [List.append_assoc, List.replicate_one, List.flatten_singleton] using hclosed
  · -- without a closing fence the blanks after the text are at the end of everything
    have hbehind : ∀ c ∈ back ++ after ++ behind, Text.isBlank c = true :=
      List.forall_mem_append.mpr ⟨hafter, h.behind_blank⟩
    have hopen := @Unfenced.fenced before tag (gap ++ front) (Text.trim text) [] (back ++ after ++ behind) 0
      h.before_blank hgap nofun hbehind (Text.trim_trim text) htag (fun _ => rfl) fun _ => hnot
    simpa only [List.append_assoc, List.replicate_zero, List.flatten_nil, List.nil_append] using hopen

/-- **What is left of a text in a fence**: `unfence` gives the same with the fence and without. -/
theorem Fenced.unfence_eq (h : Fenced before tag gap text after closing behind) :
    unfence (before ++ fence ++ tag ++ gap ++ text ++ after ++ closing ++ behind) = unfence text := by
  rw [unfence_of_not_opening h.not_opening]
  exact h.unfenced.unfence_eq

/-! ## The explanation -/

/-- The explanation in a text, whatever reads the document that is left of it. -/
def Analysis.ofTextBy (read? : List Char → Option Analysis) (text : String) :
    Except AnalysisError Analysis :=
  match read? (unfence text.toList) with
  | none => .error .unreadable
  | some analysis => if analysis.isEmpty then .error .nothingSaid else .ok analysis

theorem Analysis.ofText_eq_ofTextBy :
    ofText = ofTextBy fun document => (Json.parse? document).bind ofJson? := rfl

end

/-- **A fence makes no difference.** `Analysis.ofTextBy` gives the same outcome for a text that neither begins
nor ends with three backticks and for that text in a fence (`Fenced`), open or closed, with blanks anywhere
around the two, whatever `read?` reads the document in it; so does `Analysis.ofText`. -/
theorem fence_makes_no_difference (before tag gap text after closing behind : String)
    (hbefore : ∀ c ∈ before.toList, Text.isBlank c = true)
    (hgap : ∀ c ∈ gap.toList, Text.isBlank c = true)
    (hafter : ∀ c ∈ after.toList, Text.isBlank c = true)
    (hbehind : ∀ c ∈ behind.toList, Text.isBlank c = true)
    (hstart : ¬"```".toList <+: Text.trim text.toList) (hend : ¬"```".toList <:+ Text.trim text.toList)
    (htag : tag = "json" ∨ tag = "" ∧ ¬"json".toList <+: (gap ++ text).toList)
    (hclosing : closing = "```" ∨ closing = "") :
    (∀ read?, Analysis.ofTextBy read?
        (before ++ "```" ++ tag ++ gap ++ text ++ after ++ closing ++ behind) =
      Analysis.ofTextBy read? text) ∧
      Analysis.ofText (before ++ "```" ++ tag ++ gap ++ text ++ after ++ closing ++ behind) =
        Analysis.ofText text := by
  have hfenced : Fenced before.toList tag.toList gap.toList text.toList after.toList closing.toList
      behind.toList := by
    refine ⟨hbefore, hgap, hafter, hbehind, hstart, hend, ?_, ?_⟩
    · rcases htag with rfl | ⟨rfl, hword⟩
      · exact .inl rfl
      · rw [String.toList_append] at hword
        exact .inr ⟨rfl, hword⟩
    · rcases hclosing with rfl | rfl
      · exact .inl rfl
      · exact .inr rfl
  have hunfence : unfence
      (before ++ "```" ++ tag ++ gap ++ text ++ after ++ closing ++ behind).toList =
      unfence text.toList := by
    simp only [String.toList_append]
    exact hfenced.unfence_eq
  have hby : ∀ read?, Analysis.ofTextBy read?
      (before ++ "```" ++ tag ++ gap ++ text ++ after ++ closing ++ behind) =
      Analysis.ofTextBy read? text := by
    intro read?
    unfold Analysis.ofTextBy
    rw [hunfence]
  exact ⟨hby, by rw [Analysis.ofText_eq_ofTextBy, hby]⟩

/-- A document that has a fence of its own in it, and a text that ends in two backticks. -/
theorem fence_makes_no_difference_abutting :
    Analysis.ofText (" " ++ "```" ++ "json" ++ "" ++ "\x7b\"explanation\":\"```\"\x7d" ++ "\n" ++ "```" ++ "\t") =
        .ok ⟨"```", [], [], none⟩ ∧
      Analysis.ofText ("" ++ "```" ++ "" ++ "\n" ++ "json``" ++ "" ++ "```" ++ "") = .error .unreadable ∧
      ∀ read?, Analysis.ofTextBy read? ("" ++ "```" ++ "" ++ "\n" ++ "json``" ++ "" ++ "```" ++ "") =
        Analysis.ofTextBy read? "json``" := by
  have hnone : ∀ c ∈ "".toList, Text.isBlank c = true := List.all_eq_true.mp (by decide)
  have hblank : ∀ c ∈ " ".toList, Text.isBlank c = true := List.all_eq_true.mp (by decide)
  have hline : ∀ c ∈ "\n".toList, Text.isBlank c = true := List.all_eq_true.mp (by decide)
  have htab : ∀ c ∈ "\t".toList, Text.isBlank c = true := List.all_eq_true.mp (by decide)
  obtain ⟨-, hdocument⟩ := fence_makes_no_difference " " "json" "" "\x7b\"explanation\":\"```\"\x7d" "\n"
    "```" "\t" hblank hnone hline htab (by decide) (by decide) (.inl rfl) (.inl rfl)
  obtain ⟨hby, hunread⟩ := fence_makes_no_difference "" "" "\n" "json``" "" "```" "" hnone hline hnone hnone
    (by decide) (by decide) (.inr ⟨rfl, by decide⟩) (.inl rfl)
  refine ⟨hdocument.trans ?_, hunread.trans ?_, hby⟩
  all_goals decide +kernel

end Calculator
