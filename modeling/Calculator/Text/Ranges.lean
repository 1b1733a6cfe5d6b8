/-!
# `Text.Ranges` — sets of characters as ranges

The tables of character properties list ranges of code points in ascending order, so a search stops at
the first range that begins beyond the character.
-/

namespace Calculator.Text

/-- Disjoint ranges of code points in ascending order, each with its first and last member. -/
abbrev Ranges := List (Nat × Nat)

/-- Whether a code point lies in one of the ranges. -/
def Ranges.hasCode : Ranges → Nat → Bool
  | [], _ => false
  | (first, last) :: rest, code =>
    if code < first then false
    else if code ≤ last then true
    else Ranges.hasCode rest code

/-- Whether a character lies in one of the ranges. -/
def Ranges.has (ranges : Ranges) (c : Char) : Bool := ranges.hasCode c.toNat

end Calculator.Text
