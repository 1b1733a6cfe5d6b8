import Calculator.Text.Property.Emoji
import Calculator.Text.Property.Extending
import Calculator.Text.Property.Segmentation

/-!
# `Text.Cluster` — visible symbols

What a reader sees as one symbol may be several characters: a letter with its accents, a flag, a
family. A text falls into such clusters by the extended rules of Unicode's text segmentation. Whether
a character belongs to the cluster before it hangs on that character and on what stands before it
only, so the clusters of a text are found in one pass, and what follows a text never changes the
clusters inside it.

## Contents

* `Break`, `Break.of` — the classes of characters that the rules speak of
* `Context`, `Context.joins`, `Context.advance` — what the rules remember of the text so far
* `clusters` — the symbols of a text
-/

namespace Calculator.Text

/-- The classes of characters for segmentation. -/
inductive Break where
  | carriageReturn | lineFeed | control
  | extend | joiner | spacingMark | prepend | regional
  | leading | vowel | trailing | leadingVowel | syllable
  | other
deriving Repr, DecidableEq

namespace Break

/-- The class of a Hangul character: single letters by their block, and whole syllables by whether
they end in a consonant, which every first one of twenty-eight does not. The vowel signs of Kirat Rai,
which are put together from each other, are in the class of the Hangul vowels. -/
def hangul? (code : Nat) : Option Break :=
  if (0x1100 ≤ code && code ≤ 0x115F) || (0xA960 ≤ code && code ≤ 0xA97C) then some .leading
  else if (0x1160 ≤ code && code ≤ 0x11A7) || (0xD7B0 ≤ code && code ≤ 0xD7C6) || code = 0x16D63
      || (0x16D67 ≤ code && code ≤ 0x16D6A) then some .vowel
  else if (0x11A8 ≤ code && code ≤ 0x11FF) || (0xD7CB ≤ code && code ≤ 0xD7FB) then some .trailing
  else if 0xAC00 ≤ code && code ≤ 0xD7A3 then
    some (if (code - 0xAC00) % 28 = 0 then .leadingVowel else .syllable)
  else none

/-- The zero width joiner. -/
def zeroWidthJoiner : Char := Char.ofNat 0x200D

/-- Whether a character is a skin tone; it extends what it follows. -/
def isSkinTone (c : Char) : Bool := 0x1F3FB ≤ c.toNat && c.toNat ≤ 0x1F3FF

/-- The class of a character. -/
def of (c : Char) : Break :=
  if c = '\r' then .carriageReturn
  else if c = '\n' then .lineFeed
  else if c = zeroWidthJoiner then .joiner
  else if Property.control.has c then .control
  else if Property.graphemeExtend.has c || isSkinTone c then .extend
  else if 0x1F1E6 ≤ c.toNat && c.toNat ≤ 0x1F1FF then .regional
  else if Property.prepending.has c then .prepend
  else if Property.spacingMark.has c then .spacingMark
  else (hangul? c.toNat).getD .other

/-- Whether a break is required on both sides. -/
def standsAlone : Break → Bool
  | .carriageReturn | .lineFeed | .control => true
  | _ => false

end Break

/-- How far a sequence of joined pictures has come. -/
inductive Picture where
  | none
  | shown
  | joined
deriving Repr, DecidableEq

/-- How far an Indic conjunct has come. -/
inductive Conjunct where
  | none
  | consonant
  | linked
deriving Repr, DecidableEq

/-- What the rules remember of the text so far: the class of its `last` character, whether it ends in an odd
number of regional indicators, and how far a `Picture` or a `Conjunct` has come. -/
structure Context where
  last : Option Break
  oddRegional : Bool
  picture : Picture
  conjunct : Conjunct
deriving Repr, DecidableEq

namespace Context

/-- Before the first character. -/
def start : Context := ⟨none, false, .none, .none⟩

/-- Whether a character belongs to the cluster before it, by the rules for its `Break` and the `Context`. -/
def joins (context : Context) (c : Char) : Bool :=
  match context.last with
  | none => false
  | some last =>
    let next := Break.of c
    if last = .carriageReturn && next = .lineFeed then true
    else if last.standsAlone || next.standsAlone then false
    else
      match last, next with
      | _, .extend | _, .joiner | _, .spacingMark => true
      | .prepend, _ => true
      | .leading, .leading | .leading, .vowel | .leading, .leadingVowel | .leading, .syllable => true
      | .leadingVowel, .vowel | .leadingVowel, .trailing | .vowel, .vowel | .vowel, .trailing => true
      | .syllable, .trailing | .trailing, .trailing => true
      | .regional, .regional => context.oddRegional
      | _, _ =>
        (context.picture = .joined && Property.pictographic.has c)
          || (context.conjunct = .linked && Property.conjunctConsonant.has c)

/-- The `Context` behind a character. -/
def advance (context : Context) (c : Char) : Context :=
  let next := Break.of c
  { last := some next
    oddRegional := next = .regional && !(context.last = some .regional && context.oddRegional)
    picture :=
      if Property.pictographic.has c then .shown
      else if context.picture = .shown && next = .extend then .shown
      else if context.picture = .shown && next = .joiner then .joined
      else .none
    conjunct :=
      if Property.conjunctConsonant.has c then .consonant
      else if context.conjunct = .none then .none
      else if Property.conjunctLinker.has c then .linked
      else if (next = .extend && c.toNat ≠ 0x200C) || next = .joiner then context.conjunct
      else .none }

end Context

/-- The characters that still belong to the cluster before a text (`joins`), and the clusters that begin in
it. -/
def clustersFrom (context : Context) : List Char → List Char × List (List Char)
  | [] => ([], [])
  | c :: rest =>
    let (own, others) := clustersFrom (context.advance c) rest
    if context.joins c then (c :: own, others) else ([], (c :: own) :: others)

/-- The visible symbols of a text, in order. -/
def clusters (text : List Char) : List (List Char) := (clustersFrom .start text).2

/-! ## The clusters are the text -/

theorem clustersFrom_flatten (context : Context) (text : List Char) :
    (clustersFrom context text).1 ++ (clustersFrom context text).2.flatten = text := by
  induction text generalizing context with
  | nil => rfl
  | cons c rest ih =>
    have h := ih (context.advance c)
    simp only [clustersFrom]
    split <;> simp [h]

theorem clustersFrom_start_fst (text : List Char) : (clustersFrom .start text).1 = [] := by
  cases text with
  | nil => rfl
  | cons c rest => simp [clustersFrom, Context.joins, Context.start]

/-- The clusters of a text, joined, are the text. -/
theorem clusters_flatten (text : List Char) : (clusters text).flatten = text := by
  have h := clustersFrom_flatten .start text
  rwa [clustersFrom_start_fst, List.nil_append] at h

end Calculator.Text
