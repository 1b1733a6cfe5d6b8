import Calculator.Expression.Tokenize
import Mathlib.Data.List.TakeWhile

/-!
# `Proofs.Expression.Cutting` — where a text is cut

The character that a piece begins with decides what piece it is, and no character begins two kinds of
piece. Each kind goes on for as long as its characters last, so a character that continues none of them
ends every piece in front of it: a blank cuts the text in two, and what stands on one side has no part in
how the other is cut. Blanks around a text are no part of it at all. So texts with blanks between them are
read one after the other, and what is wrong with the first of them is all that is said about both.

## Contents

* `Text.isBlank_eq_false_of_isAlpha`, `isDigit_eq_false_of_isAlpha` — kinds of characters are apart
* `Lexeme.scan_blank` … `Lexeme.scan_symbol` — the piece that a character begins
* `Lexeme.scan_append_blank` — a blank cuts a text in two
* `Text.exists_trimEnd`, `Text.exists_trim`, `Lexeme.scan_trim` — blanks around a text
* `tokenize_append_blanks` — texts with blanks between them
-/

namespace Calculator

section

variable {c w : Char} {p : Char → Bool} {rest text blanks : List Char}

/-! ## Kinds of characters -/

theorem isAlpha_iff_toNat :
    c.isAlpha = true ↔ (65 ≤ c.toNat ∧ c.toNat ≤ 90) ∨ (97 ≤ c.toNat ∧ c.toNat ≤ 122) := by
  have hcases : c.isAlpha =
      (decide (65 ≤ c.val ∧ c.val ≤ 90) || (decide (97 ≤ c.val) && decide (c.val ≤ 122))) := rfl
  simp [hcases, UInt32.le_iff_toNat_le, ← Char.toNat_val]

theorem isDigit_iff_toNat : c.isDigit = true ↔ 48 ≤ c.toNat ∧ c.toNat ≤ 57 :=
  Char.isDigit_iff_toNat

theorem isDigit_eq_false_of_isAlpha (h : c.isAlpha = true) : c.isDigit = false := by
  rw [isAlpha_iff_toNat] at h
  rw [← Bool.not_eq_true, isDigit_iff_toNat]
  omega

theorem Text.isBlank_eq_false_of_isAlpha (h : c.isAlpha = true) : Text.isBlank c = false := by
  rw [isAlpha_iff_toNat] at h
  simp [Text.isBlank, Text.blankRanges]
  omega

theorem Text.isBlank_eq_false_of_isDigit (h : c.isDigit = true) : Text.isBlank c = false := by
  rw [isDigit_iff_toNat] at h
  simp [Text.isBlank, Text.blankRanges]
  omega

theorem isDigit_eq_false_of_isBlank (h : Text.isBlank c = true) : c.isDigit = false := by
  by_contra hdigit
  rw [Text.isBlank_eq_false_of_isDigit (by simpa using hdigit)] at h
  exact absurd h (by simp)

theorem isAlpha_eq_false_of_isBlank (h : Text.isBlank c = true) : c.isAlpha = false := by
  by_contra halpha
  rw [Text.isBlank_eq_false_of_isAlpha (by simpa using halpha)] at h
  exact absurd h (by simp)

theorem ne_point_of_isBlank (h : Text.isBlank c = true) : c ≠ '.' := by
  rintro rfl
  exact absurd h (by decide)

/-! ## The piece that a character begins -/

namespace Lexeme

theorem scan_nil : scan [] = [] := by rw [scan]

theorem scan_blank (h : Text.isBlank c = true) : scan (c :: rest) = scan rest := by
  rw [scan, if_pos h]

theorem scan_digit (h : c.isDigit = true) :
    scan (c :: rest) = .numeral (c :: (spanNumeral rest).1) :: scan (spanNumeral rest).2 := by
  rw [scan, if_neg (by simp [Text.isBlank_eq_false_of_isDigit h]), if_pos h]

theorem scan_point :
    scan ('.' :: rest) = .numeral ('.' :: (spanDigits rest).1) :: scan (spanDigits rest).2 := by
  rw [scan, if_neg (by decide), if_neg (by decide), if_pos rfl]

theorem scan_letter (h : c.isAlpha = true) :
    scan (c :: rest) =
      .word (c :: rest.takeWhile Char.isAlpha) :: scan (rest.dropWhile Char.isAlpha) := by
  have hpoint : c ≠ '.' := by
    rintro rfl
    exact absurd h (by decide)
  rw [scan, if_neg (by simp [Text.isBlank_eq_false_of_isAlpha h]),
    if_neg (by simp [isDigit_eq_false_of_isAlpha h]), if_neg hpoint, if_pos h]

theorem scan_symbol (hblank : Text.isBlank c = false) (hdigit : c.isDigit = false)
    (hpoint : c ≠ '.') (halpha : c.isAlpha = false) :
    scan (c :: rest) = .symbol c :: scan rest := by
  rw [scan, if_neg (by simp [hblank]), if_neg (by simp [hdigit]), if_neg hpoint,
    if_neg (by simp [halpha])]

end Lexeme

/-! ## A character that continues nothing -/

theorem takeWhile_append_cons (h : p w = false) (text rest : List Char) :
    (text ++ w :: rest).takeWhile p = text.takeWhile p := by
  induction text with
  | nil => simp [h]
  | cons c text ih => simp only [List.cons_append, List.takeWhile_cons, ih]

theorem dropWhile_append_cons (h : p w = false) (text rest : List Char) :
    (text ++ w :: rest).dropWhile p = text.dropWhile p ++ w :: rest := by
  induction text with
  | nil => simp [h]
  | cons c text ih =>
      simp only [List.cons_append, List.dropWhile_cons, ih]
      split <;> rfl

theorem spanDigits_append_blank (h : Text.isBlank w = true) (text rest : List Char) :
    spanDigits (text ++ w :: rest) = ((spanDigits text).1, (spanDigits text).2 ++ w :: rest) := by
  have hdigit := isDigit_eq_false_of_isBlank h
  unfold spanDigits
  rw [takeWhile_append_cons hdigit, dropWhile_append_cons hdigit]

theorem spanNumeral_of_point {others : List Char} (h : (spanDigits text).2 = '.' :: others) :
    spanNumeral text =
      ((spanDigits text).1 ++ '.' :: (spanDigits others).1, (spanDigits others).2) := by
  unfold spanNumeral
  split
  · rename_i heq
    rw [heq] at h
    obtain rfl := (List.cons.inj h).2
    rw [heq]
  · rename_i hnone heq
    rw [heq] at h
    exact absurd h (hnone others)

theorem spanNumeral_of_ne_point (h : (spanDigits text).2.head? ≠ some '.') :
    spanNumeral text = spanDigits text := by
  unfold spanNumeral
  split
  · rename_i heq
    exact absurd (by rw [heq]; rfl) h
  · rename_i heq
    exact heq.symm

theorem spanNumeral_append_blank (h : Text.isBlank w = true) (text rest : List Char) :
    spanNumeral (text ++ w :: rest) = ((spanNumeral text).1, (spanNumeral text).2 ++ w :: rest) := by
  have hspan := spanDigits_append_blank h text rest
  by_cases hpoint : (spanDigits text).2.head? = some '.'
  · -- the digits behind the point end at the blank as well
    obtain ⟨fraction, hfraction⟩ := List.head?_eq_some_iff.mp hpoint
    have hafter : (spanDigits (text ++ w :: rest)).2 = '.' :: (fraction ++ w :: rest) := by
      rw [hspan, hfraction, List.cons_append]
    rw [spanNumeral_of_point hfraction, spanNumeral_of_point hafter, hspan,
      spanDigits_append_blank h]
  · have hafter : (spanDigits (text ++ w :: rest)).2.head? ≠ some '.' := by
      rw [hspan]
      cases hrest : (spanDigits text).2 with
      | nil => simpa using ne_point_of_isBlank h
      | cons c others => simpa [hrest] using hpoint
    rw [spanNumeral_of_ne_point hpoint, spanNumeral_of_ne_point hafter, hspan]

/-- **A blank cuts a text in two**: `scan` gives the pieces in front of it and then those behind it. -/
theorem Lexeme.scan_append_blank (h : Text.isBlank w = true) (text rest : List Char) :
    scan (text ++ w :: rest) = scan text ++ scan rest := by
  induction text using scan.induct with
  | case1 => rw [List.nil_append, scan_blank h, scan_nil, List.nil_append]
  | case2 c text hblank ih => rw [List.cons_append, scan_blank hblank, scan_blank hblank, ih]
  | case3 c text hblank hdigit ih =>
      rw [List.cons_append, scan_digit hdigit, scan_digit hdigit, spanNumeral_append_blank h, ih,
        List.cons_append]
  | case4 text hblank hdigit ih =>
      rw [List.cons_append, scan_point, scan_point, spanDigits_append_blank h, ih, List.cons_append]
  | case5 c text hblank hdigit hpoint halpha ih =>
      have hend := isAlpha_eq_false_of_isBlank h
      rw [List.cons_append, scan_letter halpha, scan_letter halpha, takeWhile_append_cons hend,
        dropWhile_append_cons hend, ih, List.cons_append]
  | case6 c text hblank hdigit hpoint halpha ih =>
      simp only [Bool.not_eq_true] at hblank hdigit halpha
      rw [List.cons_append, scan_symbol hblank hdigit hpoint halpha,
        scan_symbol hblank hdigit hpoint halpha, ih, List.cons_append]

/-! ## Blanks around a text -/

theorem Lexeme.scan_of_blank (h : ∀ c ∈ blanks, Text.isBlank c = true) : scan blanks = [] := by
  induction blanks with
  | nil => exact scan_nil
  | cons c blanks ih =>
      rw [scan_blank (h c List.mem_cons_self)]
      exact ih fun d hd => h d (List.mem_cons_of_mem c hd)

theorem Lexeme.scan_blanks_append (h : ∀ c ∈ blanks, Text.isBlank c = true) (text : List Char) :
    scan (blanks ++ text) = scan text := by
  induction blanks with
  | nil => rfl
  | cons c blanks ih =>
      rw [List.cons_append, scan_blank (h c List.mem_cons_self)]
      exact ih fun d hd => h d (List.mem_cons_of_mem c hd)

theorem Lexeme.scan_append_blanks (h : ∀ c ∈ blanks, Text.isBlank c = true) (text : List Char) :
    scan (text ++ blanks) = scan text := by
  cases blanks with
  | nil => rw [List.append_nil]
  | cons c blanks =>
      rw [scan_append_blank (h c List.mem_cons_self),
        scan_of_blank fun d hd => h d (List.mem_cons_of_mem c hd), List.append_nil]

/-- A text is its trimmed end with blanks behind it. -/
theorem Text.exists_trimEnd (text : List Char) :
    ∃ blanks, text = trimEnd text ++ blanks ∧ ∀ c ∈ blanks, isBlank c = true := by
  refine ⟨(text.reverse.takeWhile isBlank).reverse, ?_, fun c hc => ?_⟩
  · unfold trimEnd
    rw [← List.reverse_append, List.takeWhile_append_dropWhile, List.reverse_reverse]
  · exact List.mem_takeWhile_imp (List.mem_reverse.mp hc)

/-- A text is its trimmed form with blanks on both sides. -/
theorem Text.exists_trim (text : List Char) :
    ∃ before after, text = before ++ trim text ++ after ∧
      (∀ c ∈ before, isBlank c = true) ∧ ∀ c ∈ after, isBlank c = true := by
  obtain ⟨after, hbody, hafter⟩ := exists_trimEnd (trimStart text)
  refine ⟨text.takeWhile isBlank, after, ?_, fun c hc => List.mem_takeWhile_imp hc, hafter⟩
  calc text = text.takeWhile isBlank ++ trimStart text := List.takeWhile_append_dropWhile.symm
    _ = text.takeWhile isBlank ++ trim text ++ after := by
        rw [List.append_assoc]
        exact congrArg _ hbody

theorem Lexeme.scan_trim (text : List Char) : scan (Text.trim text) = scan text := by
  obtain ⟨before, after, htext, hbefore, hafter⟩ := Text.exists_trim text
  calc scan (Text.trim text) = scan (before ++ Text.trim text ++ after) := by
        rw [scan_append_blanks hafter, scan_blanks_append hbefore]
    _ = scan text := by rw [← htext]

/-! ## Texts with blanks between them -/

/-- However many blanks there are, they cut a text in two. -/
theorem Lexeme.scan_append_blanks_append (hne : blanks ≠ [])
    (h : ∀ c ∈ blanks, Text.isBlank c = true) (text rest : List Char) :
    scan (text ++ blanks ++ rest) = scan text ++ scan rest := by
  obtain ⟨first, others, rfl⟩ := List.exists_cons_of_ne_nil hne
  rw [List.append_assoc, List.cons_append, scan_append_blank (h first List.mem_cons_self),
    scan_blanks_append fun d hd => h d (List.mem_cons_of_mem first hd)]

/-- The texts on both sides of some blanks are read one after the other. -/
theorem tokenize_append_eq_bind {gap : String} (hne : gap ≠ "")
    (h : ∀ c ∈ gap.toList, Text.isBlank c = true) (first second : String) :
    tokenize (first ++ gap ++ second) =
      (tokenize first).bind fun tokens => (tokenize second).map (tokens ++ ·) := by
  have hchars : gap.toList ≠ [] := by simpa using hne
  unfold tokenize
  rw [String.toList_append, String.toList_append, Lexeme.scan_append_blanks_append hchars h,
    Token.ofLexemes_append]

/-- **Texts with blanks between them.** If `tokenize` fails for the first text, it fails so for both with
blanks between them; if it fails for the second one only, then as for that one; otherwise both have their
tokens one after the other. Blanks in front of a text and behind it and further blanks between two texts do
not matter. -/
theorem tokenize_append_blanks {gap : String} (hne : gap ≠ "")
    (h : ∀ c ∈ gap.toList, Text.isBlank c = true) (first second : String) :
    (∀ e, tokenize first = .error e → tokenize (first ++ gap ++ second) = .error e) ∧
      (∀ tokens e, tokenize first = .ok tokens → tokenize second = .error e →
        tokenize (first ++ gap ++ second) = .error e) ∧
      (∀ tokens others, tokenize first = .ok tokens → tokenize second = .ok others →
        tokenize (first ++ gap ++ second) = .ok (tokens ++ others)) ∧
      tokenize (gap ++ second) = tokenize second ∧
      tokenize (first ++ gap) = tokenize first ∧
      ∀ more : String, (∀ c ∈ more.toList, Text.isBlank c = true) →
        tokenize (first ++ (gap ++ more) ++ second) = tokenize (first ++ gap ++ second) := by
  have hbind := tokenize_append_eq_bind hne h first second
  refine ⟨?_, ?_, ?_, ?_, ?_, ?_⟩
  · intro e he
    rw [hbind, he]
    rfl
  · intro tokens e htokens he
    rw [hbind, htokens, he]
    rfl
  · intro tokens others htokens hothers
    rw [hbind, htokens, hothers]
    rfl
  · unfold tokenize
    rw [String.toList_append, Lexeme.scan_blanks_append h]
  · unfold tokenize
    rw [String.toList_append, Lexeme.scan_append_blanks h]
  · intro more hmore
    have hboth : ∀ c ∈ (gap ++ more).toList, Text.isBlank c = true := by
      intro c hc
      rw [String.toList_append] at hc
      exact (List.mem_append.mp hc).elim (h c) (hmore c)
    have hbothne : gap ++ more ≠ "" := by simp [hne]
    rw [hbind, tokenize_append_eq_bind hbothne hboth]

/-- A numeral that ends in its point is not continued behind a blank, nor is a word, and what is wrong is
said once. -/
theorem tokenize_append_blanks_unfinished :
    tokenize ("1." ++ " \u3000" ++ ".5X") = .ok [.number 1, .number 0.5, .variable] ∧
      tokenize ("ex" ++ "\t" ++ "p") = .ok [.word "e", .variable, .word "p"] ∧
      tokenize ("2." ++ " " ++ ". #") = .error (.malformed (.invalidNumber ['.'])) := by
  have hwide : ∀ c ∈ " \u3000".toList, Text.isBlank c = true := by
    simp [Text.isBlank, Text.blankRanges]
  have htab : ∀ c ∈ "\t".toList, Text.isBlank c = true := by
    simp [Text.isBlank, Text.blankRanges]
  have hspace : ∀ c ∈ " ".toList, Text.isBlank c = true := by
    simp [Text.isBlank, Text.blankRanges]
  obtain ⟨-, -, hnumbers, -⟩ := tokenize_append_blanks (by decide) hwide "1." ".5X"
  obtain ⟨-, -, hwords, -⟩ := tokenize_append_blanks (by decide) htab "ex" "p"
  obtain ⟨-, herror, -⟩ := tokenize_append_blanks (by decide) hspace "2." ". #"
  refine ⟨hnumbers [.number 1] [.number 0.5, .variable] ?_ ?_,
    hwords [.word "e", .variable] [.word "p"] ?_ ?_, herror [.number 2] _ ?_ ?_⟩
  all_goals decide +kernel

end

end Calculator
