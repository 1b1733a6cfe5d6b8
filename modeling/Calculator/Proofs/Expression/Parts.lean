import Calculator.Expression.Highlight
import Calculator.Proofs.Expression.Cutting

/-!
# `Proofs.Expression.Parts` — the parts of a text on the screen

The parts of a text lose nothing of it: one after the other they are the text. Where they begin and end can
be said without a word on how they are found. A part is a run of letters or a run of digits and points that
neither neighbour goes on with, or any other character by itself, and a run of letters is shown as a function
if and only if it names something. A text has only one cutting of this kind.

The same parts are found by reading the text one character after the other, with letters and digits kept
back until it is known that they do not go on. At any time either there are letters kept back or there are
digits, never both, so that it does not matter which of them are given out first.

## Contents

* `MaximalRun`, `IsPart`, `Parts` — what the parts of a text are
* `parts_highlight`, `Parts.highlight_eq` — the only parts of a text
* `PendingParts`, `highlight_eq_close` — the parts as they are found character by character
* `highlight_lossless` — nothing is lost, and every part is one
-/

namespace Calculator

/-- **A maximal run** of characters for which `p` holds: it holds for neither the character in front of them
nor the one behind them. -/
structure MaximalRun (p : Char → Bool) (before run after : List Char) : Prop where
  ne_nil : run ≠ []
  all : ∀ c ∈ run, p c = true
  front : ∀ c ∈ before.getLast?, p c = false
  back : ∀ c ∈ after.head?, p c = false

/-- Whether letters, taken as small ones, are the name of a constant or of a function. -/
def IsNamed (letters : List Char) : Prop :=
  String.ofList (letters.map Char.toLower) ∈ Constant.names ∨
    String.ofList (letters.map Char.toLower) ∈ Function.names

/-- **What a part is** where it stands: a run of letters, shown as a `function` if and only if they are
`IsNamed`; a run of digits and points; or a single character that is none of these. -/
inductive IsPart (before after : List Char) : HighlightSpan → Prop
  | word {letters : List Char} {role : Role} (run : MaximalRun Char.isAlpha before letters after)
      (role_iff : role = .function ↔ IsNamed letters) (role_or : role = .function ∨ role = .base) :
      IsPart before after ⟨letters, role⟩
  | number {digits : List Char} (run : MaximalRun isNumeric before digits after) :
      IsPart before after ⟨digits, .number⟩
  | symbol {c : Char} (letter : c.isAlpha = false) (numeric : isNumeric c = false) :
      IsPart before after ⟨[c], symbolRole c⟩

/-- **The parts of a text** with something in front of it, one after the other, each an `IsPart`. -/
inductive Parts : List Char → List Char → List HighlightSpan → Prop
  | nil {before : List Char} : Parts before [] []
  | cons {before rest : List Char} {span : HighlightSpan} {spans : List HighlightSpan}
      (part : IsPart before rest span) (others : Parts (before ++ span.text) rest spans) :
      Parts before (span.text ++ rest) (span :: spans)

section

variable {p : Char → Bool} {c : Char} {before rest text letters digits run : List Char}
  {span : HighlightSpan} {spans : List HighlightSpan}

/-! ## Characters and names -/

theorem isNumeric_eq_false_of_isAlpha (h : c.isAlpha = true) : isNumeric c = false := by
  have hpoint : c ≠ '.' := by
    rintro rfl
    exact absurd h (by decide)
  simp [isNumeric, isDigit_eq_false_of_isAlpha h, hpoint]

theorem isAlpha_eq_false_of_isNumeric (h : isNumeric c = true) : c.isAlpha = false := by
  by_contra halpha
  rw [isNumeric_eq_false_of_isAlpha (by simpa using halpha)] at h
  exact absurd h (by decide)

theorem isName_iff_isNamed :
    isName (String.ofList (letters.map Char.toLower)) = true ↔ IsNamed letters :=
  isName_eq_true_iff

theorem wordRole_eq_function_iff : wordRole letters = .function ↔ IsNamed letters := by
  rw [← isName_iff_isNamed]
  unfold wordRole
  split <;> simp_all

theorem wordRole_cases (letters : List Char) :
    wordRole letters = .function ∨ wordRole letters = .base := by
  unfold wordRole
  split
  · exact .inl rfl
  · exact .inr rfl

/-! ## Runs -/

/-- A run that does not go on is taken as a whole. -/
theorem takeWhile_run (hall : ∀ c ∈ run, p c = true) (hback : ∀ c ∈ rest.head?, p c = false) :
    (run ++ rest).takeWhile p = run := by
  cases rest with
  | nil => rw [List.append_nil, List.takeWhile_eq_self_iff.mpr hall]
  | cons d rest => rw [takeWhile_append_cons (hback d rfl), List.takeWhile_eq_self_iff.mpr hall]

theorem dropWhile_run (hall : ∀ c ∈ run, p c = true) (hback : ∀ c ∈ rest.head?, p c = false) :
    (run ++ rest).dropWhile p = rest := by
  have hboth := List.takeWhile_append_dropWhile (p := p) (l := run ++ rest)
  rw [takeWhile_run hall hback] at hboth
  exact List.append_cancel_left hboth

/-- The run that a character begins, and what is behind it. -/
theorem run_spec (h : p c = true) (rest : List Char) :
    (∀ d ∈ c :: rest.takeWhile p, p d = true) ∧ (∀ d ∈ (rest.dropWhile p).head?, p d = false) ∧
      c :: rest = (c :: rest.takeWhile p) ++ rest.dropWhile p := by
  refine ⟨fun d hd => ?_, fun d hd => ?_, ?_⟩
  · rcases List.mem_cons.mp hd with rfl | hd
    · exact h
    · exact List.mem_takeWhile_imp hd
  · have hhead := List.head?_dropWhile_not p rest
    rw [Option.mem_def.mp hd] at hhead
    exact hhead
  · rw [List.cons_append, List.takeWhile_append_dropWhile]

theorem highlight_nil : highlight [] = [] := by rw [highlight]

theorem highlight_word (hne : letters ≠ []) (hall : ∀ c ∈ letters, c.isAlpha = true)
    (hback : ∀ c ∈ rest.head?, c.isAlpha = false) :
    highlight (letters ++ rest) = ⟨letters, wordRole letters⟩ :: highlight rest := by
  obtain ⟨c, more, rfl⟩ := List.exists_cons_of_ne_nil hne
  have hmore : ∀ d ∈ more, d.isAlpha = true := fun d hd => hall d (List.mem_cons_of_mem c hd)
  rw [List.cons_append, highlight, if_pos (hall c List.mem_cons_self), takeWhile_run hmore hback,
    dropWhile_run hmore hback]

theorem highlight_number (hne : digits ≠ []) (hall : ∀ c ∈ digits, isNumeric c = true)
    (hback : ∀ c ∈ rest.head?, isNumeric c = false) :
    highlight (digits ++ rest) = ⟨digits, .number⟩ :: highlight rest := by
  obtain ⟨c, more, rfl⟩ := List.exists_cons_of_ne_nil hne
  have hmore : ∀ d ∈ more, isNumeric d = true := fun d hd => hall d (List.mem_cons_of_mem c hd)
  have hnumeric := hall c List.mem_cons_self
  rw [List.cons_append, highlight, if_neg (by simp [isAlpha_eq_false_of_isNumeric hnumeric]),
    if_pos hnumeric, takeWhile_run hmore hback, dropWhile_run hmore hback]

theorem highlight_symbol (hletter : c.isAlpha = false) (hnumeric : isNumeric c = false) :
    highlight (c :: rest) = ⟨[c], symbolRole c⟩ :: highlight rest := by
  rw [highlight, if_neg (by simp [hletter]), if_neg (by simp [hnumeric])]

/-! ## The only parts of a text -/

theorem Parts.flatten (h : Parts before text spans) : spans.flatMap HighlightSpan.text = text := by
  induction h with
  | nil => rfl
  | cons _ _ ih => rw [List.flatMap_cons, ih]

theorem IsPart.ne_nil {after : List Char} (h : IsPart before after span) : span.text ≠ [] := by
  cases h with
  | word run => exact run.ne_nil
  | number run => exact run.ne_nil
  | symbol => exact List.cons_ne_nil _ _

/-- A part among the others is one where it stands. -/
theorem Parts.isPart {front behind : List HighlightSpan}
    (h : Parts before text (front ++ span :: behind)) :
    IsPart (before ++ front.flatMap HighlightSpan.text) (behind.flatMap HighlightSpan.text) span := by
  induction front generalizing before text with
  | nil =>
      cases h with
      | cons part others =>
          rw [others.flatten, List.flatMap_nil, List.append_nil]
          exact part
  | cons first front ih =>
      cases h with
      | cons part others =>
          rw [List.flatMap_cons, ← List.append_assoc]
          exact ih others

/-- A text does not go on with what stands in front of it. -/
def Apart (before text : List Char) : Prop :=
  ∀ d ∈ before.getLast?, ∀ c ∈ text.head?,
    (c.isAlpha = true → d.isAlpha = false) ∧ (isNumeric c = true → isNumeric d = false)

theorem MaximalRun.of_apart (hne : run ≠ []) (hall : ∀ c ∈ run, p c = true)
    (hback : ∀ c ∈ rest.head?, p c = false)
    (hapart : ∀ d ∈ before.getLast?, ∀ c ∈ (run ++ rest).head?, p c = true → p d = false) :
    MaximalRun p before run rest := by
  refine ⟨hne, hall, fun d hd => ?_, hback⟩
  obtain ⟨c, more, rfl⟩ := List.exists_cons_of_ne_nil hne
  exact hapart d hd c rfl (hall c List.mem_cons_self)

/-- A kind of character that a run is not of is not what it ends in, either. -/
theorem not_of_mem_getLast? {q : Char → Bool} (hne : run ≠ []) (hall : ∀ c ∈ run, p c = true)
    (hother : ∀ c, p c = true → q c = false) : ∀ d ∈ (before ++ run).getLast?, q d = false := by
  intro d hd
  rw [List.getLast?_append, List.getLast?_eq_some_getLast hne, Option.some_or] at hd
  obtain rfl := Option.some.inj hd
  exact hother _ (hall _ (List.getLast_mem hne))

/-- **A text has the parts that are found** by `highlight`. -/
theorem parts_highlight (h : Apart before text) : Parts before text (highlight text) := by
  induction text using highlight.induct generalizing before with
  | case1 =>
      rw [highlight_nil]
      exact .nil
  | case2 c rest halpha ih =>
      obtain ⟨hall, hback, htext⟩ := run_spec halpha rest
      rw [htext] at h ⊢
      rw [highlight_word (List.cons_ne_nil _ _) hall hback]
      have hrun := MaximalRun.of_apart (List.cons_ne_nil _ _) hall hback fun d hd c hc => (h d hd c hc).1
      refine .cons (.word hrun wordRole_eq_function_iff (wordRole_cases _)) (ih fun d hd e he => ?_)
      have hlast := not_of_mem_getLast? (List.cons_ne_nil _ _) hall
        (fun _ => isNumeric_eq_false_of_isAlpha) d hd
      exact ⟨fun hletter => absurd hletter (by simp [hback e he]), fun _ => hlast⟩
  | case3 c rest halpha hnumeric ih =>
      obtain ⟨hall, hback, htext⟩ := run_spec hnumeric rest
      rw [htext] at h ⊢
      rw [highlight_number (List.cons_ne_nil _ _) hall hback]
      have hrun := MaximalRun.of_apart (List.cons_ne_nil _ _) hall hback fun d hd c hc => (h d hd c hc).2
      refine .cons (.number hrun) (ih fun d hd e he => ?_)
      have hlast := not_of_mem_getLast? (List.cons_ne_nil _ _) hall
        (fun _ => isAlpha_eq_false_of_isNumeric) d hd
      exact ⟨fun _ => hlast, fun hdigit => absurd hdigit (by simp [hback e he])⟩
  | case4 c rest halpha hnumeric ih =>
      simp only [Bool.not_eq_true] at halpha hnumeric
      rw [highlight_symbol halpha hnumeric]
      have hpart : IsPart before rest ⟨[c], symbolRole c⟩ := .symbol halpha hnumeric
      have hapart : Apart (before ++ [c]) rest := by
        intro d hd _ _
        obtain rfl : c = d := by simpa using hd
        exact ⟨fun _ => halpha, fun _ => hnumeric⟩
      have hparts := Parts.cons hpart (ih hapart)
      exact hparts

/-- **It has no others**: all `Parts` of a text are those of `highlight`. -/
theorem Parts.highlight_eq (h : Parts before text spans) : highlight text = spans := by
  induction h with
  | nil => exact highlight_nil
  | @cons before rest span spans part _ ih =>
      cases part with
      | @word letters role run role_iff role_or =>
          have hrole : wordRole letters = role := by
            rcases wordRole_cases letters with hword | hword <;> rcases role_or with rfl | rfl
            · exact hword
            · exact absurd (role_iff.mpr (wordRole_eq_function_iff.mp hword)) (by decide)
            · exact absurd (wordRole_eq_function_iff.mpr (role_iff.mp rfl)) (by simp [hword])
            · exact hword
          rw [highlight_word run.ne_nil run.all run.back, ih, hrole]
      | number run => rw [highlight_number run.ne_nil run.all run.back, ih]
      | symbol hletter hnumeric =>
          rw [List.singleton_append, highlight_symbol hletter hnumeric, ih]

end

/-! ## Character by character -/

/-- A text that has been read in part: the parts that are finished, and the letters or digits that may
still go on. -/
structure PendingParts where
  finished : List HighlightSpan
  word : List Char
  number : List Char

namespace PendingParts

/-- Nothing has been read. -/
def start : PendingParts := ⟨[], [], []⟩

/-- Gives out the letters that are kept back. -/
def flushWord (pending : PendingParts) : PendingParts :=
  if pending.word.isEmpty then pending
  else
    { pending with
      finished := pending.finished ++ [⟨pending.word, wordRole pending.word⟩]
      word := [] }

/-- Gives out the digits that are kept back. -/
def flushNumber (pending : PendingParts) : PendingParts :=
  if pending.number.isEmpty then pending
  else { pending with finished := pending.finished ++ [⟨pending.number, .number⟩], number := [] }

/-- Reads one more character. -/
def read (pending : PendingParts) (c : Char) : PendingParts :=
  if c.isAlpha then
    let pending := pending.flushNumber
    { pending with word := pending.word ++ [c] }
  else
    let pending := pending.flushWord
    if isNumeric c then { pending with number := pending.number ++ [c] }
    else
      let pending := pending.flushNumber
      { pending with finished := pending.finished ++ [⟨[c], symbolRole c⟩] }

/-- The parts, at the end of the text. -/
def close (pending : PendingParts) : List HighlightSpan := pending.flushWord.flushNumber.finished

/-- Letters or digits are kept back, not both. -/
structure Sound (pending : PendingParts) : Prop where
  letters : ∀ c ∈ pending.word, c.isAlpha = true
  digits : ∀ c ∈ pending.number, isNumeric c = true
  one : pending.word = [] ∨ pending.number = []

/-- The parts that there will be if the rest of the text is highlighted with what is kept back in front
of it. -/
def outlook (pending : PendingParts) (rest : List Char) : List HighlightSpan :=
  pending.finished ++ highlight (pending.word ++ pending.number ++ rest)

section

variable {pending : PendingParts} {c : Char} {rest : List Char}

theorem flushWord_word (pending : PendingParts) : pending.flushWord.word = [] := by
  unfold flushWord
  split
  · rename_i hempty
    exact List.isEmpty_iff.mp hempty
  · rfl

theorem flushWord_number (pending : PendingParts) : pending.flushWord.number = pending.number := by
  unfold flushWord
  split <;> rfl

theorem flushNumber_number (pending : PendingParts) : pending.flushNumber.number = [] := by
  unfold flushNumber
  split
  · rename_i hempty
    exact List.isEmpty_iff.mp hempty
  · rfl

theorem flushNumber_word (pending : PendingParts) : pending.flushNumber.word = pending.word := by
  unfold flushNumber
  split <;> rfl

theorem Sound.flushWord (h : pending.Sound) : pending.flushWord.Sound where
  letters := by simp [flushWord_word]
  digits := by simpa [flushWord_number] using h.digits
  one := .inl pending.flushWord_word

theorem Sound.flushNumber (h : pending.Sound) : pending.flushNumber.Sound where
  letters := by simpa [flushNumber_word] using h.letters
  digits := by simp [flushNumber_number]
  one := .inr pending.flushNumber_number

/-- Letters that do not go on can be given out. -/
theorem Sound.outlook_flushWord (h : pending.Sound) (hback : ∀ c ∈ rest.head?, c.isAlpha = false) :
    pending.flushWord.outlook rest = pending.outlook rest := by
  by_cases hempty : pending.word.isEmpty = true
  · rw [PendingParts.flushWord, if_pos hempty]
  · have hne : pending.word ≠ [] := fun heq => hempty (List.isEmpty_iff.mpr heq)
    have hnumber := h.one.resolve_left hne
    simp [outlook, PendingParts.flushWord, hempty, hnumber, highlight_word hne h.letters hback]

/-- Digits that do not go on can be given out. -/
theorem Sound.outlook_flushNumber (h : pending.Sound) (hback : ∀ c ∈ rest.head?, isNumeric c = false) :
    pending.flushNumber.outlook rest = pending.outlook rest := by
  by_cases hempty : pending.number.isEmpty = true
  · rw [PendingParts.flushNumber, if_pos hempty]
  · have hne : pending.number ≠ [] := fun heq => hempty (List.isEmpty_iff.mpr heq)
    have hword := h.one.resolve_right hne
    simp [outlook, PendingParts.flushNumber, hempty, hword, highlight_number hne h.digits hback]

/-- **One character**: `read` keeps what is kept back `Sound`, and the `outlook` on the parts to come is the
same. -/
theorem Sound.read (h : pending.Sound) (c : Char) (rest : List Char) :
    (pending.read c).Sound ∧ (pending.read c).outlook rest = pending.outlook (c :: rest) := by
  unfold PendingParts.read
  by_cases halpha : c.isAlpha = true
  · rw [if_pos halpha]
    have hnumeric := isNumeric_eq_false_of_isAlpha halpha
    have hback : ∀ d ∈ (c :: rest).head?, isNumeric d = false := by simpa using hnumeric
    rw [← h.outlook_flushNumber hback]
    have hflushed := h.flushNumber
    constructor
    · refine ⟨fun d hd => ?_, hflushed.digits, .inr pending.flushNumber_number⟩
      rcases List.mem_append.mp hd with hd | hd
      · exact hflushed.letters d hd
      · exact List.mem_singleton.mp hd ▸ halpha
    · simp [outlook, flushNumber_number]
  · rw [if_neg halpha]
    have hback : ∀ d ∈ (c :: rest).head?, d.isAlpha = false := by simpa using halpha
    rw [← h.outlook_flushWord hback]
    have hflushed := h.flushWord
    by_cases hnumeric : isNumeric c = true
    · rw [if_pos hnumeric]
      constructor
      · refine ⟨hflushed.letters, fun d hd => ?_, .inl pending.flushWord_word⟩
        rcases List.mem_append.mp hd with hd | hd
        · exact hflushed.digits d hd
        · exact List.mem_singleton.mp hd ▸ hnumeric
      · simp [outlook]
    · rw [if_neg hnumeric]
      have hback : ∀ d ∈ (c :: rest).head?, isNumeric d = false := by simpa using hnumeric
      rw [← hflushed.outlook_flushNumber hback]
      have hempty := hflushed.flushNumber
      constructor
      · exact ⟨hempty.letters, hempty.digits, hempty.one⟩
      · simp only [Bool.not_eq_true] at halpha hnumeric
        simp [outlook, flushNumber_number, flushNumber_word, flushWord_word,
          highlight_symbol halpha hnumeric]

/-- **All characters**: what `close` gives at the end is the `outlook` at the beginning. -/
theorem Sound.close_foldl (h : pending.Sound) (rest : List Char) :
    (rest.foldl PendingParts.read pending).close = pending.outlook rest := by
  induction rest generalizing pending with
  | nil =>
      rw [List.foldl_nil, ← h.outlook_flushWord (by simp), ← h.flushWord.outlook_flushNumber (by simp)]
      simp [close, outlook, flushNumber_number, flushNumber_word, flushWord_word, highlight_nil]
  | cons c rest ih =>
      obtain ⟨hsound, houtlook⟩ := h.read c rest
      rw [List.foldl_cons, ih hsound, houtlook]

end

end PendingParts

/-- The parts of a text are those that are found character by character. -/
theorem highlight_eq_close (text : List Char) :
    highlight text = (text.foldl PendingParts.read .start).close := by
  have hstart : PendingParts.start.Sound := ⟨by simp [PendingParts.start], by simp [PendingParts.start],
    .inl rfl⟩
  rw [hstart.close_foldl]
  rfl

/-! ## Nothing is lost -/

/-- **The parts of a text.** The spans of `highlight` are the text when they are put together. None is empty;
each `IsPart`: a maximal run of letters, a maximal run of digits and points, or another character by itself,
with letters shown as a function exactly if they name a constant or a function. No others are `Parts` of the
text, and they are found character by character with letters and digits kept back (`PendingParts.read`). -/
theorem highlight_lossless (text : List Char) :
    (highlight text).flatMap HighlightSpan.text = text ∧
      (∀ span ∈ highlight text, span.text ≠ []) ∧
      (∀ front span behind, highlight text = front ++ span :: behind →
        IsPart (front.flatMap HighlightSpan.text) (behind.flatMap HighlightSpan.text) span) ∧
      (∀ others, Parts [] text others → others = highlight text) ∧
      (text.foldl PendingParts.read .start).close = highlight text := by
  have hparts : Parts [] text (highlight text) := parts_highlight fun d hd => absurd hd (by simp)
  have hpart : ∀ front span behind, highlight text = front ++ span :: behind →
      IsPart (front.flatMap HighlightSpan.text) (behind.flatMap HighlightSpan.text) span := by
    intro front span behind hsplit
    rw [hsplit] at hparts
    exact hparts.isPart
  refine ⟨hparts.flatten, fun span hspan => ?_, hpart, fun others hothers => ?_, ?_⟩
  · obtain ⟨front, behind, hsplit⟩ := List.append_of_mem hspan
    exact (hpart front span behind hsplit).ne_nil
  · exact hothers.highlight_eq.symm
  · exact (highlight_eq_close text).symm

/-- Capitals name a function, letters that are put together do not, and a second point ends no number. -/
theorem highlight_lossless_names :
    IsPart "2.5.".toList "×foo".toList ⟨"Sqrt".toList, .function⟩ ∧
      IsPart "2.5.Sqrt×".toList [] ⟨"foo".toList, .base⟩ ∧
      IsPart [] "Sqrt×foo".toList ⟨"2.5.".toList, .number⟩ := by
  obtain ⟨-, -, hpart, -⟩ := highlight_lossless "2.5.Sqrt×foo".toList
  have heq : highlight "2.5.Sqrt×foo".toList =
      [⟨"2.5.".toList, .number⟩, ⟨"Sqrt".toList, .function⟩, ⟨['×'], .operator⟩,
        ⟨"foo".toList, .base⟩] := by decide +kernel
  exact ⟨hpart [_] _ [_, _] heq, hpart [_, _, _] _ [] heq, hpart [] _ [_, _, _] heq⟩

end Calculator
