/-!
# `Text.Blank` — white space

The characters with Unicode's `White_Space` property separate words, surround input without being
part of it, and never reach the tokens of an expression.

## Contents

* `isBlank` — the property
* `trimStart`, `trimEnd`, `trim` — texts without the blanks around them
* `words` — the maximal runs of other characters
-/

namespace Calculator.Text

/-- The ranges of the characters with the `White_Space` property. -/
def blankRanges : List (Nat × Nat) :=
  [(0x9, 0xD), (0x20, 0x20), (0x85, 0x85), (0xA0, 0xA0), (0x1680, 0x1680), (0x2000, 0x200A),
    (0x2028, 0x2029), (0x202F, 0x202F), (0x205F, 0x205F), (0x3000, 0x3000)]

/-- Whether a character is white space. -/
def isBlank (c : Char) : Bool :=
  blankRanges.any fun (first, last) => first ≤ c.toNat && c.toNat ≤ last

/-- The text from its first character that is not `isBlank`. -/
def trimStart (text : List Char) : List Char := text.dropWhile isBlank

/-- The text up to its last character that is not `isBlank`. -/
def trimEnd (text : List Char) : List Char := (text.reverse.dropWhile isBlank).reverse

/-- The text without the blanks at both ends: `trimEnd` of `trimStart`. -/
def trim (text : List Char) : List Char := trimEnd (trimStart text)

/-- What remains after a maximal run is no longer than the text. -/
theorem length_dropWhile_le (p : Char → Bool) (text : List Char) :
    (text.dropWhile p).length ≤ text.length :=
  (List.dropWhile_sublist p).length_le

/-- The maximal runs of characters that are not blank, in order. -/
def words : List Char → List (List Char)
  | [] => []
  | c :: rest =>
    if isBlank c then words rest
    else (c :: rest.takeWhile fun d => !isBlank d) :: words (rest.dropWhile fun d => !isBlank d)
termination_by text => text.length
decreasing_by
  all_goals simp only [List.length_cons]
  · omega
  · have := length_dropWhile_le (fun d => !isBlank d) rest
    omega

end Calculator.Text
