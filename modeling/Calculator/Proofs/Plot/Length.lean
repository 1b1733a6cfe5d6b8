import Calculator.Proofs.Number.Unit
import Calculator.Proofs.Plot.Enclosure

/-!
# `Proofs.Plot.Length` — axes have a length

The horizontal axis has its lower end below its upper one, whatever points there are: it takes the ends of
the points only if they are in this order. The vertical axis does the same with the extent of the heights,
and puts a unit on either side of a single height instead. As long as the unit is told from nothing there,
this gives it a length. Points that are all at one multiple of four beyond the 53rd power of two have a
vertical axis of no length.

## Contents

* `AtHeight`, `heightRange_lt_iff` — points at one height
* `xAxis_lower_lt_upper`, `yAxis_lower_lt_upper_iff` — the lengths of the axes
* `axes_have_length` — both axes
-/

namespace Calculator

open Binary64

/-- Points that are all at one height. -/
def AtHeight (points : List GraphPoint) (value : Rat) : Prop := ∀ p ∈ points, rational p.y = value

section

variable {points rest : List GraphPoint} {extent : Interval} {value : Rat}

/-- An extent of one height stays so as long as no other height comes. -/
theorem foldl_widen_atHeight (h : extent.isFinite = true)
    (hlower : rational extent.lower = value) (hupper : rational extent.upper = value)
    (hfinite : ∀ p ∈ rest, p.y.isFinite = true) (hrest : AtHeight rest value) :
    let final := rest.foldl (fun extent p => extent.widen p.y) extent
    rational final.lower = value ∧ rational final.upper = value := by
  induction rest generalizing extent with
  | nil => exact ⟨hlower, hupper⟩
  | cons next rest ih =>
      have hnext := hfinite next List.mem_cons_self
      have hheight := hrest next List.mem_cons_self
      obtain ⟨hfiniteLower, hfiniteUpper⟩ := Interval.isFinite_iff.mp h
      refine ih (Interval.isFinite_widen h hnext) ?_ ?_
        (fun p hp => hfinite p (List.mem_cons_of_mem _ hp))
        (fun p hp => hrest p (List.mem_cons_of_mem _ hp))
      · show rational (lesser extent.lower next.y) = value
        rw [(rational_lesser hfiniteLower hnext).2, hlower, hheight, min_self]
      · show rational (greater extent.upper next.y) = value
        rw [(rational_greater hfiniteUpper hnext).2, hupper, hheight, max_self]

/-- The extent of points at one height is that height. -/
theorem heightRange_of_atHeight (h : heightRange points = some extent)
    (hfinite : ∀ p ∈ points, p.y.isFinite = true) (hheight : AtHeight points value) :
    rational extent.lower = value ∧ rational extent.upper = value := by
  cases points with
  | nil => exact absurd h (by simp [heightRange])
  | cons first rest =>
      have hfirst := hfinite first List.mem_cons_self
      have hvalue := hheight first List.mem_cons_self
      have hsingle : (⟨first.y, first.y⟩ : Interval).isFinite = true :=
        Interval.isFinite_iff.mpr ⟨hfirst, hfirst⟩
      obtain rfl := Option.some.inj h
      exact foldl_widen_atHeight hsingle hvalue hvalue
        (fun p hp => hfinite p (List.mem_cons_of_mem _ hp))
        (fun p hp => hheight p (List.mem_cons_of_mem _ hp))

/-- **The `heightRange` of points is flat** if and only if they are all `AtHeight` of one value. -/
theorem heightRange_lt_iff (h : heightRange points = some extent)
    (hfinite : ∀ p ∈ points, p.y.isFinite = true) :
    extent.lower < extent.upper ↔ ¬∃ value, AtHeight points value := by
  obtain ⟨hfinal, henclose⟩ := heightRange_encloses h hfinite
  obtain ⟨hlower, hupper⟩ := Interval.isFinite_iff.mp hfinal
  rw [lt_iff hlower hupper]
  constructor
  · rintro hlt ⟨value, hheight⟩
    obtain ⟨hsame, hsame'⟩ := heightRange_of_atHeight h hfinite hheight
    exact hlt.ne (hsame.trans hsame'.symm)
  · intro hnot
    by_contra hflat
    refine hnot ⟨rational extent.lower, fun p hp => ?_⟩
    obtain ⟨hbelow, habove⟩ := (Interval.encloses_iff hfinal (hfinite p hp)).mp (henclose p hp)
    exact le_antisymm (habove.trans (not_lt.mp hflat)) hbelow

/-- **The horizontal axis** (`xAxis`) has a length. -/
theorem xAxis_lower_lt_upper (points : List GraphPoint) :
    (xAxis points).lower < (xAxis points).upper := by
  have hstandard : Interval.standard.lower < Interval.standard.upper := by decide +kernel
  unfold xAxis
  split
  · rename_i first last _ _
    by_cases hlt : first.x < last.x
    · rw [if_pos hlt]
      exact hlt
    · rw [if_neg hlt]
      exact hstandard
  · exact hstandard

/-- **The vertical axis** (`yAxis`) has a length, unless all points are `AtHeight` of one value that
`LosesUnit`. -/
theorem yAxis_lower_lt_upper_iff (hfinite : ∀ p ∈ points, p.y.isFinite = true) :
    (yAxis points).lower < (yAxis points).upper ↔
      ¬(points ≠ [] ∧ ∃ value, AtHeight points value ∧ LosesUnit value) := by
  by_cases hempty : points = []
  · subst hempty
    exact iff_of_true (by decide +kernel) fun h => h.1 rfl
  · obtain ⟨extent, hextent⟩ : ∃ extent, heightRange points = some extent := by
      obtain ⟨first, rest, rfl⟩ := List.exists_cons_of_ne_nil hempty
      exact ⟨_, rfl⟩
    have hspread := heightRange_lt_iff hextent hfinite
    unfold yAxis
    rw [hextent, not_and, forall_prop_of_true hempty]
    by_cases hlt : extent.lower < extent.upper
    · simp only [if_pos hlt]
      exact iff_of_true hlt fun ⟨value, hheight, _⟩ => hspread.mp hlt ⟨value, hheight⟩
    · simp only [if_neg hlt]
      obtain ⟨value, hheight⟩ := not_not.mp (hspread.not.mp hlt)
      obtain ⟨hlower, -⟩ := heightRange_of_atHeight hextent hfinite hheight
      obtain ⟨hfiniteLower, -⟩ := Interval.isFinite_iff.mp (heightRange_encloses hextent hfinite).1
      rw [sub_one_lt_add_one_iff hfiniteLower, hlower]
      refine not_congr ⟨fun hloses => ⟨value, hheight, hloses⟩, ?_⟩
      -- the height of the points is a single one
      rintro ⟨other, hother, hloses⟩
      obtain ⟨hsame, -⟩ := heightRange_of_atHeight hextent hfinite hother
      exact hlower.symm.trans hsame ▸ hloses

/-- **Both axes of points with finite coordinates**, of no points as well. The lower end of `xAxis` is below
its upper end, and so is that of `yAxis`, unless there are points and all are `AtHeight` of one multiple of
four beyond the 53rd power of two, up or down. -/
theorem axes_have_length (points : List GraphPoint)
    (hfinite : ∀ p ∈ points, p.x.isFinite = true ∧ p.y.isFinite = true) :
    (xAxis points).lower < (xAxis points).upper ∧
    ((yAxis points).lower < (yAxis points).upper ↔
      ¬(points ≠ [] ∧ ∃ m : Int, 2 ^ 53 < |(4 * m : Rat)| ∧ AtHeight points (4 * m))) := by
  refine ⟨xAxis_lower_lt_upper points, ?_⟩
  rw [yAxis_lower_lt_upper_iff fun p hp => (hfinite p hp).2]
  refine not_congr (and_congr_right fun _ => ⟨?_, ?_⟩)
  · rintro ⟨value, hheight, hlt, m, rfl⟩
    exact ⟨m, hlt, hheight⟩
  · rintro ⟨m, hlt, hheight⟩
    exact ⟨_, hheight, hlt, m, rfl⟩

theorem atHeight_pair {x x' y : Float} :
    AtHeight [⟨x, y⟩, ⟨x', y⟩] value ↔ rational y = value := by
  simp [AtHeight]

/-- Two even heights next to each other beyond the 53rd power of two: at the first one the unit is told, and
at the second one, which is a multiple of four, it is not. -/
theorem axes_have_length_tall :
    let told : List GraphPoint := [⟨0, 9007199254740994⟩, ⟨1, 9007199254740994⟩]
    let lost : List GraphPoint := [⟨0, 9007199254740996⟩, ⟨1, 9007199254740996⟩]
    (yAxis told).lower < (yAxis told).upper ∧ (xAxis lost).lower < (xAxis lost).upper ∧
      ¬(yAxis lost).lower < (yAxis lost).upper := by
  intro told lost
  have htold : rational 9007199254740994 = 9007199254740994 := by
    have hbits : ofFloat 9007199254740994 = .finite false 4503599627370497 1 := by decide +kernel
    rw [rational_of_ofFloat hbits]
    norm_num [signedValue]
  have hlost : rational 9007199254740996 = 4 * (2251799813685249 : Int) := by
    have hbits : ofFloat 9007199254740996 = .finite false 4503599627370498 1 := by decide +kernel
    rw [rational_of_ofFloat hbits]
    norm_num [signedValue]
  obtain ⟨-, hfirst⟩ := axes_have_length told (by decide +kernel)
  obtain ⟨hplaces, hsecond⟩ := axes_have_length lost (by decide +kernel)
  rw [hfirst, hsecond, not_not]
  refine ⟨?_, hplaces, List.cons_ne_nil _ _, 2251799813685249, ?_, ?_⟩
  · rintro ⟨-, m, -, hheight⟩
    rw [atHeight_pair, htold] at hheight
    have hint : (9007199254740994 : Int) = 4 * m := by exact_mod_cast hheight
    omega
  · norm_num
  · exact atHeight_pair.mpr hlost

end

end Calculator
