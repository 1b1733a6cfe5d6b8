import Calculator.Expression.Outcome
import Calculator.Plot.Sample

/-!
# `Plot.Axes` — the axes around a set of points

## Contents

* `heightRange` — the least and greatest height
* `xAxis`, `yAxis` — the ends of the axes
* `labelsAlong` — the texts along an axis
-/

namespace Calculator

/-- The least and the greatest `y` of the points, if there are any. -/
def heightRange : List GraphPoint → Option Interval
  | [] => none
  | first :: rest =>
    some (rest.foldl
      (fun extent point =>
        ⟨Binary64.lesser extent.lower point.y, Binary64.greater extent.upper point.y⟩)
      ⟨first.y, first.y⟩)

/-- The ends of the horizontal axis: the first and the last `x`, or the standard stretch if they do
not increase. -/
def xAxis (points : List GraphPoint) : Interval :=
  match points.head?, points.getLast? with
  | some first, some last => if first.x < last.x then ⟨first.x, last.x⟩ else Interval.standard
  | _, _ => Interval.standard

/-- The ends of the vertical axis: the `heightRange` of the points, one unit around it if they are all at one
height, or `Interval.standard` if there are none. -/
def yAxis (points : List GraphPoint) : Interval :=
  match heightRange points with
  | some extent =>
    if extent.lower < extent.upper then extent else ⟨extent.lower - 1, extent.lower + 1⟩
  | none => Interval.standard

/-- A number rounded to two places for a label, by way of a hundred times the number. -/
def roundedForLabel (x : Float) : Float := Binary64.round (x * 100) / 100

/-- The texts of the ends and of the middle of an axis: results (`resultNumeral`) that are `roundedForLabel`. -/
def labelsAlong (axis : Interval) : List (List Char) :=
  let middle := (axis.lower + axis.upper) / 2
  [axis.lower, middle, axis.upper].map fun x => resultNumeral (roundedForLabel x)

end Calculator
