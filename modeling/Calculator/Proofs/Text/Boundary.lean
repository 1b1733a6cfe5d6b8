import Mathlib.Algebra.Ring.Parity
import Mathlib.Data.List.DropRight
import Calculator.Text.Cluster

/-!
# `Proofs.Text.Boundary` — where one symbol ends and the next begins

The rules of text segmentation speak of what stands on either side of a place in a text, and some of them
look far back: over the marks behind a picture, over a conjunct with all its signs, over a row of regional
indicators down to its beginning. None of them looks further ahead than to the next character. So the rules
can be written down as they are, one for each reason why two characters belong together, and a text falls
into symbols in exactly one way that obeys them. What is remembered of a text while it is read in one pass
is as much as the rules need, and the symbols that are found are these.

Because no rule looks ahead, a text that is cut off behind one of its symbols falls into the symbols that
are left.

## Contents

* `EndsIn`, `GoesOn`, `Joined` — the rules
* `Continues`, `Symbols`, `FallsInto` — the symbols of a text by the rules
* `Context.Remembers`, `Context.Remembers.advance`, `Context.Remembers.joins_iff` — what is remembered
* `fallsInto_iff` — the symbols that are found are the only ones
* `FallsInto.take` — the symbols of a text that is cut off
-/

namespace Calculator.Text

/-! ## The rules -/

/-- What a character can be in an Indic conjunct. -/
inductive ConjunctPart where
  | consonant
  | linker
  | extend
deriving DecidableEq

/-- What a character is in an Indic conjunct. The zero width non-joiner ends one, although it extends what
it follows everywhere else. -/
def ConjunctPart.of (c : Char) : Option ConjunctPart :=
  if Property.conjunctConsonant.has c then some .consonant
  else if Property.conjunctLinker.has c then some .linker
  else if (Break.of c = .extend && c.toNat ≠ 0x200C) || Break.of c = .joiner then some .extend
  else none

/-- A sign inside a conjunct. -/
def IsConjunctSign (c : Char) : Prop :=
  ConjunctPart.of c = some .linker ∨ ConjunctPart.of c = some .extend

/-- A text ends in a certain character, which may have to stand behind something, and in marks behind
it. -/
def EndsIn (first : List Char → Char → Prop) (mark : Char → Prop) (text : List Char) : Prop :=
  ∃ front c marks, text = front ++ c :: marks ∧ first front c ∧ ∀ d ∈ marks, mark d

/-- A picture, with what extends it. -/
def EndsInPicture : List Char → Prop :=
  EndsIn (fun _ c => Property.pictographic.has c = true) fun c => Break.of c = .extend

/-- A picture, with what extends it, and a joiner. -/
def EndsInJoinedPicture (text : List Char) : Prop :=
  ∃ front c, text = front ++ [c] ∧ EndsInPicture front ∧ Break.of c = .joiner

/-- A consonant and any signs. -/
def EndsInConjunct : List Char → Prop :=
  EndsIn (fun _ c => ConjunctPart.of c = some .consonant) IsConjunctSign

/-- A consonant and signs, with a linker among them. -/
def EndsInLinked : List Char → Prop :=
  EndsIn (fun front c => EndsInConjunct front ∧ ConjunctPart.of c = some .linker) IsConjunctSign

/-- An odd number of regional indicators, so that the last one has no partner yet. -/
def EndsInHalfFlag (text : List Char) : Prop :=
  Odd (text.rtakeWhile fun c => Break.of c = .regional).length

/-- **The reasons why a character goes on** with a text that ends in a character of class `last`. -/
inductive GoesOn (before : List Char) (last : Break) (next : Char) : Prop
  | mark (hnext : Break.of next ∈ [.extend, .joiner, .spacingMark])
  | prepended (hlast : last = .prepend)
  | leading (hlast : last = .leading)
      (hnext : Break.of next ∈ [.leading, .vowel, .leadingVowel, .syllable])
  | vowel (hlast : last ∈ [.leadingVowel, .vowel]) (hnext : Break.of next ∈ [.vowel, .trailing])
  | trailing (hlast : last ∈ [.syllable, .trailing]) (hnext : Break.of next = .trailing)
  | conjunct (hlast : EndsInLinked before) (hnext : ConjunctPart.of next = some .consonant)
  | picture (hlast : EndsInJoinedPicture before) (hnext : Property.pictographic.has next = true)
  | flag (hlast : EndsInHalfFlag before) (hnext : Break.of next = .regional)

/-- **Whether a character belongs to the symbol before it.** The two characters of a line end do; apart from
that, nothing goes on with a control character, and a control character goes on with nothing
(`standsAlone`). -/
inductive Joined (before : List Char) (next : Char) : Prop
  | lineEnd (hlast : before.getLast? = some '\r') (hnext : next = '\n')
  | goesOn {last : Char} (hlast : before.getLast? = some last)
      (hbehind : (Break.of last).standsAlone = false) (hnext : (Break.of next).standsAlone = false)
      (h : GoesOn before (Break.of last) next)

/-- Characters that all belong to the symbol before them. -/
inductive Continues : List Char → List Char → Prop
  | nil {before : List Char} : Continues before []
  | cons {before rest : List Char} {c : Char} (joined : Joined before c)
      (others : Continues (before ++ [c]) rest) : Continues before (c :: rest)

/-- **Symbols**, one after the other, with something in front of them: none is `Joined` to what is before
it. -/
inductive Symbols : List Char → List (List Char) → Prop
  | nil {before : List Char} : Symbols before []
  | cons {before rest : List Char} {c : Char} {symbols : List (List Char)} (apart : ¬Joined before c)
      (own : Continues (before ++ [c]) rest) (others : Symbols (before ++ c :: rest) symbols) :
      Symbols before ((c :: rest) :: symbols)

/-- **The symbols that a text falls into**: they are `Symbols`, and the text when they are put together. -/
structure FallsInto (text : List Char) (symbols : List (List Char)) : Prop where
  flatten : symbols.flatten = text
  symbols : Symbols [] symbols

section

variable {c d : Char} {before text own : List Char} {symbols : List (List Char)} {context : Context}

/-! ## Classes -/

theorem Break.hangul?_getD_ne (code : Nat) :
    (hangul? code).getD .other ≠ .carriageReturn ∧ (hangul? code).getD .other ≠ .lineFeed ∧
      (hangul? code).getD .other ≠ .joiner ∧ (hangul? code).getD .other ≠ .regional := by
  unfold hangul?
  split_ifs <;> simp

/-- What is known of a character from its class. -/
theorem Break.of_spec (c : Char) :
    (of c = .carriageReturn → c = '\r') ∧ (of c = .lineFeed → c = '\n') ∧
      (of c = .joiner → c = zeroWidthJoiner) ∧ (of c = .regional → 0x1F1E6 ≤ c.toNat) := by
  obtain ⟨hreturn, hfeed, hjoiner, hregional⟩ := hangul?_getD_ne c.toNat
  unfold of
  split_ifs <;> simp_all

theorem Break.of_eq_carriageReturn_iff : of c = .carriageReturn ↔ c = '\r' := by
  refine ⟨(of_spec c).1, ?_⟩
  rintro rfl
  rfl

theorem Break.of_eq_lineFeed_iff : of c = .lineFeed ↔ c = '\n' := by
  refine ⟨(of_spec c).2.1, ?_⟩
  rintro rfl
  rfl

theorem not_pictographic_of_joiner (h : Break.of c = .joiner) : Property.pictographic.has c = false := by
  obtain rfl := (Break.of_spec c).2.2.1 h
  decide +kernel

/-- Whether the classes of two characters are reason enough for the second one to go on with the
first. -/
def Break.fit (last next : Break) : Bool :=
  next ∈ [Break.extend, .joiner, .spacingMark] || last = .prepend
    || (last = .leading && next ∈ [Break.leading, .vowel, .leadingVowel, .syllable])
    || (last ∈ [Break.leadingVowel, .vowel] && next ∈ [Break.vowel, .trailing])
    || (last ∈ [Break.syllable, .trailing] && next = .trailing)

theorem Break.fit_iff {last next : Break} :
    fit last next = true ↔
      next ∈ [Break.extend, .joiner, .spacingMark] ∨ last = .prepend ∨
        last = .leading ∧ next ∈ [Break.leading, .vowel, .leadingVowel, .syllable] ∨
        last ∈ [Break.leadingVowel, .vowel] ∧ next ∈ [Break.vowel, .trailing] ∨
        last ∈ [Break.syllable, .trailing] ∧ next = .trailing := by
  simp only [fit, Bool.or_eq_true, Bool.and_eq_true, decide_eq_true_eq, or_assoc]

/-- A code point in one of the ranges is not beyond all of them. -/
theorem Ranges.exists_le_of_hasCode {ranges : Ranges} {code : Nat} (h : ranges.hasCode code = true) :
    ∃ range ∈ ranges, code ≤ range.2 := by
  induction ranges with
  | nil => exact absurd h (by simp [hasCode])
  | cons range rest ih =>
      rw [hasCode] at h
      split_ifs at h with _ hle
      · exact ⟨range, List.mem_cons_self, hle⟩
      · obtain ⟨other, hmem, hother⟩ := ih h
        exact ⟨other, List.mem_cons_of_mem range hmem, hother⟩

theorem ConjunctPart.of_eq_consonant_iff :
    of c = some .consonant ↔ Property.conjunctConsonant.has c = true := by
  unfold of
  split_ifs with hconsonant <;> simp [hconsonant]

theorem not_regional_of_consonant (h : ConjunctPart.of c = some .consonant) :
    Break.of c ≠ .regional := by
  intro hregional
  obtain ⟨range, hmem, hle⟩ := Ranges.exists_le_of_hasCode (ConjunctPart.of_eq_consonant_iff.mp h)
  have hall : ∀ range ∈ Property.conjunctConsonant, range.2 < 0x1F1E6 := by decide
  have hlt := hall range hmem
  have hge := (Break.of_spec c).2.2.2 hregional
  omega

/-! ## One character more

What a text ends in when a character is put behind it is known from what it ended in before. -/

theorem not_endsIn_nil {first : List Char → Char → Prop} {mark : Char → Prop} :
    ¬EndsIn first mark [] := by
  rintro ⟨front, c, marks, htext, -⟩
  simp at htext

theorem endsIn_concat_iff {first : List Char → Char → Prop} {mark : Char → Prop} :
    EndsIn first mark (text ++ [c]) ↔ first text c ∨ EndsIn first mark text ∧ mark c := by
  constructor
  · rintro ⟨front, d, marks, htext, hfirst, hmarks⟩
    rcases List.eq_nil_or_concat marks with rfl | ⟨marks, last, rfl⟩
    · obtain ⟨rfl, hc⟩ := List.append_inj' htext rfl
      obtain rfl := List.singleton_inj.mp hc
      exact .inl hfirst
    · rw [List.concat_eq_append, ← List.cons_append, ← List.append_assoc] at htext
      obtain ⟨rfl, hc⟩ := List.append_inj' htext rfl
      obtain rfl := List.singleton_inj.mp hc
      rw [List.concat_eq_append] at hmarks
      refine .inr ⟨⟨front, d, marks, rfl, hfirst, fun e he => hmarks e ?_⟩, hmarks c ?_⟩
      · exact List.mem_append_left [c] he
      · exact List.mem_append_right marks List.mem_cons_self
  · rintro (hfirst | ⟨⟨front, d, marks, rfl, hfirst, hmarks⟩, hc⟩)
    · exact ⟨text, c, [], rfl, hfirst, by simp⟩
    · refine ⟨front, d, marks ++ [c], by simp, hfirst, fun e he => ?_⟩
      rcases List.mem_append.mp he with he | he
      · exact hmarks e he
      · exact List.mem_singleton.mp he ▸ hc

theorem endsInJoinedPicture_concat_iff :
    EndsInJoinedPicture (text ++ [c]) ↔ EndsInPicture text ∧ Break.of c = .joiner := by
  constructor
  · rintro ⟨front, d, htext, hpicture, hd⟩
    obtain ⟨rfl, hc⟩ := List.append_inj' htext rfl
    obtain rfl := List.singleton_inj.mp hc
    exact ⟨hpicture, hd⟩
  · rintro ⟨hpicture, hc⟩
    exact ⟨text, c, rfl, hpicture, hc⟩

theorem not_endsInJoinedPicture_nil : ¬EndsInJoinedPicture [] := by
  rintro ⟨front, c, htext, -⟩
  simp at htext

theorem not_endsInHalfFlag_nil : ¬EndsInHalfFlag [] := by
  simp [EndsInHalfFlag]

theorem endsInHalfFlag_concat_iff :
    EndsInHalfFlag (text ++ [c]) ↔ Break.of c = .regional ∧ ¬EndsInHalfFlag text := by
  unfold EndsInHalfFlag
  by_cases hc : Break.of c = .regional
  · rw [List.rtakeWhile_concat_pos _ _ _ (by simp [hc]), List.length_append, List.length_singleton,
      Nat.odd_add_one]
    simp [hc]
  · rw [List.rtakeWhile_concat_neg _ _ _ (by simp [hc])]
    simp [hc]

theorem EndsInHalfFlag.getLast (h : EndsInHalfFlag before) :
    ∃ last, before.getLast? = some last ∧ Break.of last = .regional := by
  rcases List.eq_nil_or_concat before with rfl | ⟨front, last, rfl⟩
  · exact absurd h not_endsInHalfFlag_nil
  · rw [List.concat_eq_append] at h ⊢
    exact ⟨last, by simp, (endsInHalfFlag_concat_iff.mp h).1⟩

theorem EndsInJoinedPicture.getLast (h : EndsInJoinedPicture before) :
    ∃ last, before.getLast? = some last ∧ Break.of last = .joiner := by
  obtain ⟨front, c, rfl, -, hc⟩ := h
  exact ⟨c, by simp, hc⟩

/-! ## What is remembered -/

namespace Context

/-- **What a `Context` remembers is enough**: every field says whether the text so far ends in what the rules
ask for. -/
structure Remembers (context : Context) (before : List Char) : Prop where
  last : context.last = before.getLast?.map Break.of
  half : context.oddRegional = true ↔ EndsInHalfFlag before
  shown : context.picture = .shown ↔ EndsInPicture before
  joined : context.picture = .joined ↔ EndsInJoinedPicture before
  conjunct : context.conjunct ≠ .none ↔ EndsInConjunct before
  linked : context.conjunct = .linked ↔ EndsInLinked before

theorem remembers_start : start.Remembers [] where
  last := rfl
  half := by simp [start, not_endsInHalfFlag_nil]
  shown := by simp [start, EndsInPicture, not_endsIn_nil]
  joined := by simp [start, not_endsInJoinedPicture_nil]
  conjunct := by simp [start, EndsInConjunct, not_endsIn_nil]
  linked := by simp [start, EndsInLinked, not_endsIn_nil]

theorem Remembers.last_of_half (h : context.Remembers before) (hodd : context.oddRegional = true) :
    context.last = some .regional := by
  obtain ⟨last, hlast, hclass⟩ := (h.half.mp hodd).getLast
  rw [h.last, hlast, Option.map_some, hclass]

theorem advance_conjunct :
    (context.advance c).conjunct =
      match ConjunctPart.of c with
      | some .consonant => .consonant
      | some .linker => if context.conjunct = .none then .none else .linked
      | some .extend => context.conjunct
      | none => .none := by
  unfold advance ConjunctPart.of
  split_ifs <;> simp_all

/-- **One character**: `advance` keeps what is remembered enough. -/
theorem Remembers.advance (h : context.Remembers before) (c : Char) :
    (context.advance c).Remembers (before ++ [c]) where
  last := by simp [Context.advance]
  half := by
    rw [endsInHalfFlag_concat_iff, ← h.half]
    have hlast := h.last_of_half
    cases hodd : context.oddRegional <;> simp_all [Context.advance]
  shown := by
    rw [EndsInPicture, endsIn_concat_iff, ← EndsInPicture, ← h.shown]
    simp only [Context.advance]
    split_ifs <;> simp_all
  joined := by
    rw [endsInJoinedPicture_concat_iff, ← h.shown]
    have hjoiner := not_pictographic_of_joiner (c := c)
    simp only [Context.advance]
    split_ifs <;> simp_all
  conjunct := by
    rw [EndsInConjunct, endsIn_concat_iff, ← EndsInConjunct, ← h.conjunct, advance_conjunct,
      IsConjunctSign]
    rcases ConjunctPart.of c with _ | _ | _ | _ <;> simp
  linked := by
    rw [EndsInLinked, endsIn_concat_iff, ← EndsInLinked, ← h.linked, ← h.conjunct, advance_conjunct,
      IsConjunctSign]
    rcases ConjunctPart.of c with _ | _ | _ | _ <;> simp +contextual

/-! ## Whether a character joins -/

theorem joins_eq {last : Break} (h : context.last = some last) :
    context.joins c =
      ((last = .carriageReturn && Break.of c = .lineFeed)
        || (!last.standsAlone && !(Break.of c).standsAlone
          && (last.fit (Break.of c)
            || if last = .regional && Break.of c = .regional then context.oddRegional
              else (context.picture = .joined && Property.pictographic.has c)
                || (context.conjunct = .linked && Property.conjunctConsonant.has c)))) := by
  unfold joins
  rw [h]
  generalize Break.of c = next
  generalize ((context.picture = .joined && Property.pictographic.has c)
    || (context.conjunct = .linked && Property.conjunctConsonant.has c)) = farther
  cases last <;> cases next <;> rfl

theorem Remembers.goesOn_iff (h : context.Remembers before) (hlast : before.getLast? = some d) :
    ((Break.of d).fit (Break.of c)
        || if Break.of d = .regional && Break.of c = .regional then context.oddRegional
          else (context.picture = .joined && Property.pictographic.has c)
            || (context.conjunct = .linked && Property.conjunctConsonant.has c)) = true ↔
      GoesOn before (Break.of d) c := by
  rw [Bool.or_eq_true, Break.fit_iff]
  constructor
  · rintro ((hnext | hprepend | ⟨hd, hc⟩ | ⟨hd, hc⟩ | ⟨hd, hc⟩) | hfar)
    · exact .mark hnext
    · exact .prepended hprepend
    · exact .leading hd hc
    · exact .vowel hd hc
    · exact .trailing hd hc
    · split_ifs at hfar with hflag
      · simp only [Bool.and_eq_true, decide_eq_true_eq] at hflag
        exact .flag (h.half.mp hfar) hflag.2
      · simp only [Bool.or_eq_true, Bool.and_eq_true, decide_eq_true_eq] at hfar
        rcases hfar with ⟨hjoined, hc⟩ | ⟨hlinked, hc⟩
        · exact .picture (h.joined.mp hjoined) hc
        · exact .conjunct (h.linked.mp hlinked) (ConjunctPart.of_eq_consonant_iff.mpr hc)
  · rintro (hnext | hprepend | ⟨hd, hc⟩ | ⟨hd, hc⟩ | ⟨hd, hc⟩ | ⟨hd, hc⟩ | ⟨hd, hc⟩ | ⟨hd, hc⟩)
    · exact .inl (.inl hnext)
    · exact .inl (.inr (.inl hprepend))
    · exact .inl (.inr (.inr (.inl ⟨hd, hc⟩)))
    · exact .inl (.inr (.inr (.inr (.inl ⟨hd, hc⟩))))
    · exact .inl (.inr (.inr (.inr (.inr ⟨hd, hc⟩))))
    · have hother := not_regional_of_consonant hc
      rw [if_neg (by simp [hother])]
      simp [h.linked.mpr hd, ConjunctPart.of_eq_consonant_iff.mp hc]
    · obtain ⟨last, hlast', hjoiner⟩ := hd.getLast
      obtain rfl := Option.some.inj (hlast.symm.trans hlast')
      rw [if_neg (by simp [hjoiner])]
      simp [h.joined.mpr hd, hc]
    · obtain ⟨last, hlast', hregional⟩ := hd.getLast
      obtain rfl := Option.some.inj (hlast.symm.trans hlast')
      rw [if_pos (by simp [hregional, hc])]
      exact .inr (h.half.mpr hd)

/-- **The character that is read next `joins` if and only if the rules say so** (`Joined`). -/
theorem Remembers.joins_iff (h : context.Remembers before) :
    context.joins c = true ↔ Joined before c := by
  cases hlast : before.getLast? with
  | none =>
      have hnone : context.last = none := by rw [h.last, hlast, Option.map_none]
      rw [joins, hnone]
      constructor
      · intro hfalse
        exact absurd hfalse Bool.false_ne_true
      · rintro (hfalse | hfalse) <;> exact absurd (hlast.symm.trans hfalse) (by simp)
  | some d =>
      have hsome : context.last = some (Break.of d) := by rw [h.last, hlast, Option.map_some]
      rw [joins_eq hsome, Bool.or_eq_true, Bool.and_eq_true, Bool.and_eq_true, Bool.and_eq_true,
        h.goesOn_iff hlast, decide_eq_true_eq, decide_eq_true_eq, Break.of_eq_carriageReturn_iff,
        Break.of_eq_lineFeed_iff, Bool.not_eq_true', Bool.not_eq_true']
      constructor
      · rintro (⟨rfl, rfl⟩ | ⟨⟨hbehind, hnext⟩, hon⟩)
        · exact .lineEnd hlast rfl
        · exact .goesOn hlast hbehind hnext hon
      · rintro (⟨hreturn, hfeed⟩ | @⟨last, hlast', hbehind, hnext, hon⟩)
        · exact .inl ⟨Option.some.inj (hlast.symm.trans hreturn), hfeed⟩
        · obtain rfl := Option.some.inj (hlast.symm.trans hlast')
          exact .inr ⟨⟨hbehind, hnext⟩, hon⟩

end Context

/-! ## The symbols that are found -/

/-- **The symbols that `clustersFrom` finds obey the rules** (`Symbols`). -/
theorem Context.Remembers.symbols_clustersFrom (h : context.Remembers before) (text : List Char) :
    Continues before (clustersFrom context text).1 ∧
      Symbols (before ++ (clustersFrom context text).1) (clustersFrom context text).2 := by
  induction text generalizing context before with
  | nil => exact ⟨.nil, .nil⟩
  | cons c rest ih =>
      obtain ⟨hown, hothers⟩ := ih (h.advance c)
      rw [List.append_assoc] at hothers
      rw [clustersFrom]
      split_ifs with hjoins
      · exact ⟨.cons (h.joins_iff.mp hjoins) hown, hothers⟩
      · refine ⟨.nil, ?_⟩
        rw [List.append_nil]
        exact .cons (fun hjoined => hjoins (h.joins_iff.mpr hjoined)) hown hothers

/-- **Symbols that obey the rules are found** by `clustersFrom`. The induction is on the text, so that it does
not matter whether a character begins a symbol. -/
theorem Context.Remembers.clustersFrom_eq (h : context.Remembers before) (hown : Continues before own)
    (hsymbols : Symbols (before ++ own) symbols) :
    clustersFrom context (own ++ symbols.flatten) = (own, symbols) := by
  induction htext : own ++ symbols.flatten generalizing context before own symbols with
  | nil =>
      obtain ⟨rfl, hflatten⟩ := List.append_eq_nil_iff.mp htext
      cases hsymbols with
      | nil => rfl
      | cons => exact absurd hflatten (by simp)
  | cons c text ih =>
      cases hown with
      | nil =>
          rw [List.append_nil] at hsymbols
          cases hsymbols with
          | nil => exact absurd htext (by simp)
          | @cons _ rest d symbols hapart hrest hothers =>
              obtain ⟨rfl, rfl⟩ : d = c ∧ rest ++ symbols.flatten = text := by simpa using htext
              have hjoins : context.joins d = false := by
                rw [← Bool.not_eq_true, h.joins_iff]
                exact hapart
              rw [List.append_cons] at hothers
              rw [clustersFrom, ih (h.advance d) hrest hothers rfl]
              exact if_neg (by simp [hjoins])
      | @cons _ rest d hjoined hrest =>
          obtain ⟨rfl, rfl⟩ : d = c ∧ rest ++ symbols.flatten = text := by simpa using htext
          rw [List.append_cons] at hsymbols
          rw [clustersFrom, ih (h.advance d) hrest hsymbols rfl]
          exact if_pos (h.joins_iff.mpr hjoined)

/-- **A text falls into its `clusters`, and into no others.** -/
theorem fallsInto_iff : FallsInto text symbols ↔ symbols = clusters text := by
  constructor
  · rintro ⟨rfl, hsymbols⟩
    have hfound := Context.remembers_start.clustersFrom_eq .nil hsymbols
    rw [List.nil_append] at hfound
    rw [clusters, hfound]
  · rintro rfl
    have hsymbols := (Context.remembers_start.symbols_clustersFrom text).2
    rw [clustersFrom_start_fst, List.append_nil] at hsymbols
    exact ⟨clusters_flatten text, hsymbols⟩

/-! ## Cutting off -/

theorem Symbols.take (h : Symbols before symbols) (k : Nat) : Symbols before (symbols.take k) := by
  induction h generalizing k with
  | nil =>
      rw [List.take_nil]
      exact .nil
  | cons hapart hown _ ih =>
      cases k with
      | zero => exact .nil
      | succ k => exact .cons hapart hown (ih k)

/-- **A text that is cut off behind a symbol falls into the symbols that are left** (`FallsInto`). -/
theorem FallsInto.take (h : FallsInto text symbols) (k : Nat) :
    FallsInto (symbols.take k).flatten (symbols.take k) :=
  ⟨rfl, h.symbols.take k⟩

/-- A text that falls into symbols is blank if there are none. -/
theorem FallsInto.eq_nil_iff (h : FallsInto text symbols) : text = [] ↔ symbols = [] := by
  obtain ⟨rfl, hsymbols⟩ := h
  cases hsymbols with
  | nil => simp
  | cons => simp

end

end Calculator.Text
