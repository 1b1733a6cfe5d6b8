import Calculator.Text.Property.EastAsianWidth
import Calculator.Text.Property.Emoji
import Calculator.Text.Property.Extending

/-!
# `Text.Width` — how many columns a text takes

A terminal shows most characters in one column, East Asian ones and pictures in two, and marks in none.
The width of a text is the sum over its characters except where several of them are shown as one: a
picture with its selector or skin tone, pictures joined into one, and a few ligatures of single
scripts. What follows a character decides, so a text is measured from its end.

## Contents

* `columns` — the columns of a character
* `columnsAmongWide?` — the same among East Asian text, where ambiguous characters take two
* `Follow`, `Follow.step` — a character together with what follows it
* `width` — the columns of a text
-/

namespace Calculator.Text

/-- Whether a character is a control, which is shown in no columns of its own. -/
def isControl (c : Char) : Bool := c.toNat < 0x20 || (0x7F ≤ c.toNat && c.toNat < 0xA0)

/-- Whether a character is shown over or inside its neighbours. -/
def hasNoColumn (c : Char) : Bool :=
  c.toNat ≠ 0x115F &&
    (Property.graphemeExtend.has c || Property.defaultIgnorable.has c
      || Property.conjoiningJamo.has c || Property.precedingMarks.has c)

/-- The columns of a character by itself. Two Khmer signs stand for several letters and are as wide as
those. -/
def columns (c : Char) : Nat :=
  if isControl c || hasNoColumn c then 0
  else if Property.wide.has c || c.toNat = 0x17A4 then 2
  else if c.toNat = 0x17D8 then 3
  else 1

/-- The columns of a character among East Asian text; a control has none that could be told. -/
def columnsAmongWide? (c : Char) : Option Nat :=
  if isControl c then none
  else if Property.ambiguous.has c then some 2
  else some (columns c)

/-! ## Characters shown as one -/

/-- What a character is followed by, as far as it changes the character's width. -/
inductive Follow where
  | plain
  | emojiSelector
  | textSelector
  | picture
  | joinedPicture
  | joinedSelector
  | skinTone
  | alef
  | lamed
  | joinedLamed
  | buginese
  | joinedBuginese
  | bugineseVowel
  | khmerLetter
  | tifinagh
  | joinedTifinagh
  | linkedTifinagh
  | lisuTone
  | orkhon
  | joinedOrkhon
deriving Repr, DecidableEq

/-- Arabic letters that join with a preceding lam into one column. -/
def alefs : Ranges :=
  [(0x622, 0x623), (0x625, 0x625), (0x627, 0x627), (0x671, 0x673), (0x675, 0x675),
    (0x773, 0x774), (0x870, 0x882)]

/-- Arabic letters that join with a following alef into one column. -/
def lams : Ranges := [(0x644, 0x644), (0x6B5, 0x6B8), (0x76A, 0x76A), (0x8A6, 0x8A6), (0x8C7, 0x8C7)]

/-- Khmer letters that a preceding sign writes below the line. -/
def subjoinedLetters : Ranges :=
  [(0x1780, 0x1782), (0x1784, 0x1787), (0x1789, 0x178C), (0x178E, 0x1793), (0x1795, 0x1798),
    (0x179B, 0x179D), (0x17A0, 0x17A0), (0x17A2, 0x17A2), (0x17A7, 0x17A7), (0x17AB, 0x17AC),
    (0x17AF, 0x17AF)]

/-- Tifinagh consonants. -/
def tifinaghConsonants : Ranges := [(0x2D31, 0x2D65), (0x2D6F, 0x2D6F)]

/-- Selectors and invisible marks, which do not part what they stand between. -/
def transparentMarks : Ranges :=
  [(0x34F, 0x34F), (0x17B4, 0x17B5), (0x180B, 0x180D), (0x180F, 0x180F), (0xFE00, 0xFE0F),
    (0xE0100, 0xE01EF)]

namespace Follow

/-- What a character is to the one before it, by itself. -/
def of (c : Char) : Follow :=
  let code := c.toNat
  if code < 0x5D0 then .plain
  else if 0x1F3FB ≤ code && code ≤ 0x1F3FF then .skinTone
  else if Property.emojiPresentation.has c then .picture
  else if alefs.has c then .alef
  else if code = 0x5DC then .lamed
  else if code = 0x1A10 then .buginese
  else if subjoinedLetters.has c then .khmerLetter
  else if tifinaghConsonants.has c then .tifinagh
  else if code = 0xA4FC || code = 0xA4FD then .lisuTone
  else if code = 0x10C03 then .orkhon
  else .plain

/-- What a zero width joiner makes of what follows it. -/
def join : Follow → Follow
  | .picture | .skinTone => .joinedPicture
  | .lamed => .joinedLamed
  | .buginese => .joinedBuginese
  | .tifinagh => .joinedTifinagh
  | .orkhon => .joinedOrkhon
  | .bugineseVowel => .bugineseVowel
  | .linkedTifinagh => .linkedTifinagh
  | _ => .plain

/-- Whether a character may be shown as a picture. -/
def isSelectable (c : Char) : Bool := Property.emojiSelectable.has c || Property.emojiPresentation.has c

/-- What a character adds to the width of the text that follows it, if it is shown as one with that
text, and what the two are to the character before. -/
def shared? (follow : Follow) (c : Char) : Option (Int × Follow) :=
  let code := c.toNat
  match follow with
  | .emojiSelector => if isSelectable c then some (2, .picture) else none
  | .joinedSelector => if isSelectable c then some (0, .picture) else none
  | .textSelector => if Property.textSelectable.has c then some (1, .plain) else none
  | .joinedPicture =>
    if of c = .picture then some (0, .picture)
    else if of c = .skinTone then some (0, .skinTone)
    else none
  | .skinTone => if Property.modifierBase.has c then some (0, .skinTone) else none
  | .alef =>
    if lams.has c then some (0, .plain)
    else if Property.graphemeExtend.has c && code ≠ 0x200C then some (0, .alef)
    else none
  | .joinedLamed => if code = 0x5D0 then some (0, .plain) else none
  | .khmerLetter => if code = 0x17D2 then some (-1, .plain) else none
  | .joinedBuginese => if code = 0x1A17 then some (0, .bugineseVowel) else none
  | .bugineseVowel => if code = 0x1A15 then some (0, .plain) else none
  | .tifinagh => if code = 0x2D7F then some (1, .linkedTifinagh) else none
  | .joinedTifinagh =>
    if code = 0x2D7F then some (1, .linkedTifinagh)
    else if tifinaghConsonants.has c then some (0, .plain)
    else none
  | .linkedTifinagh => if tifinaghConsonants.has c then some (-1, .plain) else none
  | .lisuTone => if 0xA4F8 ≤ code && code ≤ 0xA4FB then some (0, .plain) else none
  | .joinedOrkhon => if code = 0x10C32 then some (0, .plain) else none
  | .plain | .picture | .lamed | .buginese | .orkhon => none

/-- What a character adds to the width of the text that follows it, and what the two are to the
character before. -/
def step (follow : Follow) (c : Char) : Int × Follow :=
  let code := c.toNat
  if code < 0xA0 && follow = .plain then (columns c, .plain)
  else
    match follow.shared? c with
    | some result => result
    | none =>
      if code = 0xFE0F then (0, if follow = .joinedPicture then .joinedSelector else .emojiSelector)
      else if code = 0xFE0E then (0, .textSelector)
      else if code = 0x200D then (0, follow.join)
      else if transparentMarks.has c then (0, follow)
      else (columns c, of c)

end Follow

/-- The columns of a text and what it is to a character in front of it. -/
def measure : List Char → Int × Follow
  | [] => (0, .plain)
  | c :: rest =>
    let (sum, follow) := measure rest
    let (columns, follow) := follow.step c
    (sum + columns, follow)

/-- The columns of a text. -/
def width (text : List Char) : Nat := (measure text).1.toNat

end Calculator.Text
