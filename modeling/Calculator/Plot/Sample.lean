import Calculator.Expression.Value

/-!
# `Plot.Sample` — the points of a graph

A graph is sampled at evenly spaced places, both ends included, and a place where the expression has no
value is left out. Nothing here fails: a text that is no expression has no points.

## Contents

* `Interval`, `Interval.ordered` — the stretch of the axis that is sampled
* `GraphPoint`, `Expr.pointAt?` — one point
* `gridPoint`, `grid` — the places
* `curve` — the points of a text
-/

namespace Calculator

/-- A stretch of an axis, by its ends. -/
structure Interval where
  lower : Float
  upper : Float
deriving Repr, DecidableEq

namespace Interval

/-- The stretch that is sampled unless another one is asked for. -/
def standard : Interval := ⟨-10, 10⟩

/-- Whether both ends are finite. -/
def isFinite (interval : Interval) : Bool := interval.lower.isFinite && interval.upper.isFinite

/-- The same stretch with its lesser end as the `lower` one. -/
def ordered (interval : Interval) : Interval :=
  if interval.upper < interval.lower then ⟨interval.upper, interval.lower⟩ else interval

end Interval

/-- The number of steps between the ends unless another one is asked for. -/
def standardSteps : Nat := 200

/-- A point of a graph. -/
structure GraphPoint where
  x : Float
  y : Float
deriving Repr, DecidableEq

/-- The point of an expression at `x`, if it has a value there. -/
def Expr.pointAt? (tree : Expr) (x : Float) : Option GraphPoint :=
  match tree.eval (some x) with
  | .ok y => some ⟨x, y⟩
  | .error _ => none

/-- The place number `i` of a stretch in `steps` steps. The last one is the upper end itself, whatever
the steps add up to. -/
def gridPoint (interval : Interval) (steps i : Nat) : Float :=
  if i = steps then interval.upper
  else
    let step := (interval.upper - interval.lower) / Binary64.ofNat steps
    interval.lower + Binary64.ofNat i * step

/-- All places of a stretch (`gridPoint`); without steps it is the lower end alone. -/
def grid (interval : Interval) (steps : Nat) : List Float :=
  if steps = 0 then [interval.lower]
  else (List.range (steps + 1)).map (gridPoint interval steps)

/-- The points of a text over a stretch (`pointAt?`), from left to right whichever end is given first. Nothing
is sampled towards infinity. -/
def curve (expression : String) (domain : Interval) (steps : Nat) : List GraphPoint :=
  match compile expression with
  | .error _ => []
  | .ok tree =>
    if domain.isFinite then (grid domain.ordered steps).filterMap tree.pointAt? else []

end Calculator
