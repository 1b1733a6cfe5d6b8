import Calculator.Screen.Canvas

/-!
# `Screen.Border` — frames with titles

A frame runs along the edge of an area. Its title stands on the upper edge and may be too long for it:
then it begins at the corner and is cut where the frame leaves it two columns too few.

## Contents

* `Border` — the signs of a frame
* `Canvas.frame` — drawing one
-/

namespace Calculator.Screen

/-- The signs that a frame is drawn with. -/
structure Border where
  vertical : Char
  horizontal : Char
  topLeft : Char
  topRight : Char
  bottomLeft : Char
  bottomRight : Char
deriving Repr, DecidableEq

namespace Border

/-- A thin frame. -/
def single : Border := ⟨'│', '─', '┌', '┐', '└', '┘'⟩

/-- A doubled frame. -/
def double : Border := ⟨'║', '═', '╔', '╗', '╚', '╝'⟩

end Border

/-- Where a text stands in the room that it has. -/
inductive Alignment where
  | left
  | center
  | right
deriving Repr, DecidableEq

namespace Canvas

/-- Puts a sign into a column of cells. -/
def column (canvas : Canvas) (x : Nat) (area : Area) (sign : Char) : Canvas :=
  (List.range' area.top area.height).foldl (fun canvas y => canvas.put x y [sign]) canvas

/-- Puts a sign into a row of cells. -/
def row (canvas : Canvas) (y : Nat) (area : Area) (sign : Char) : Canvas :=
  (List.range' area.left area.width).foldl (fun canvas x => canvas.put x y [sign]) canvas

/-- Draws the four edges and then the corners. Where they fall together, as in a single row or column,
the one that is drawn last is seen: of the corners, the upper left one. -/
def edges (canvas : Canvas) (area : Area) (border : Border) : Canvas :=
  let right := area.right - 1
  let bottom := area.bottom - 1
  ((((((((canvas.column area.left area border.vertical).row area.top area border.horizontal).column
    right area border.vertical).row
    bottom area border.horizontal).put
    right bottom [border.bottomRight]).put
    right area.top [border.topRight]).put
    area.left bottom [border.bottomLeft]).put
    area.left area.top [border.topLeft])

/-- The column of a title in an area. -/
def titleColumn (area : Area) (alignment : Alignment) (title : List Char) : Nat :=
  match alignment with
  | .center => area.left + (area.width - Text.width title) / 2
  | _ => area.left + 1

/-- Draws a frame along the edge of an area, with a title. -/
def frame (canvas : Canvas) (area : Area) (border : Border) (alignment : Alignment)
    (title : List Char) : Canvas :=
  if area.isEmpty then canvas
  else
    (canvas.edges area border).writeSpans (titleColumn area alignment title) area.top
      (area.width - 2) [title]

end Canvas

end Calculator.Screen
