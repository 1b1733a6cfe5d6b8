import Calculator.Proofs.Number.Error
import Calculator.Proofs.Plot.Enclosure

/-!
# `Proofs.Plot.Coverage` — the places of a graph cover its stretch

The places of a graph are multiples of a step, and each of them comes out of four roundings: of the length of
the stretch, of the step, of its multiple, and of the sum with the lower end. Before the last place the
multiple falls short of the length by a step at least, and as long as there are not too many steps that is
more than what is rounded. Two things can go wrong. Where the length is beyond all numbers, so is the step,
and the only place that is what it should be is the last one, which is the upper end by definition. And where
a step is not many of the least numbers long, rounding can make it longer by a good part of itself.

## Contents

* `Interval.Resolves` — steps that a stretch has room for
* `multiple_le_length` — what the roundings add up to
* `step_spec`, `gridPoint_zero`, `gridPoint_encloses` — the step, the first place, and every place
* `curve_covers` — the points of a graph
-/

namespace Calculator

open Binary64

/-- **A stretch has room for its steps**: they are not too many, and its length is that of many times
`underflow` for each of them, or nothing. -/
def Interval.Resolves (domain : Interval) (steps : Nat) : Prop :=
  steps ≤ 2 ^ 50 ∧ (rational domain.upper = rational domain.lower ∨
    8 * (steps : Rat) ^ 2 * underflow ≤ rational domain.upper - rational domain.lower)

/-- The length of one step. -/
def Interval.step (domain : Interval) (steps : Nat) : Float :=
  (domain.upper - domain.lower) / ofNat steps

section

variable {expression : String} {tree : Expr} {domain : Interval} {steps i : Nat} {x : Float} {p : GraphPoint}
  {length step multiple exact n part unit : Rat}

theorem gridPoint_of_lt (h : i < steps) :
    gridPoint domain steps i = domain.lower + ofNat i * domain.step steps := if_neg h.ne

theorem gridPoint_last (domain : Interval) (steps : Nat) : gridPoint domain steps steps = domain.upper :=
  if_pos rfl

/-! ## What the roundings add up to -/

/-- What is left out in front of the last place is more than what a multiple is rounded by. -/
theorem sub_one_mul_le (hpart : 0 ≤ part) (hshare : part * n ≤ 1) :
    (n - 1) * (1 + part) ≤ n := by
  linarith

/-- **What the roundings add up to** is less than a step, so that a multiple of the `step` is not longer than
the stretch. -/
theorem multiple_le_length (hn : 1 ≤ n) (hpart : 0 ≤ part) (hunit : 0 ≤ unit) (hshare : 8 * part * n ≤ 1)
    (hexact : 8 * n ^ 2 * unit ≤ exact) (hlength : length ≤ exact * (1 + part) + unit)
    (hstep : step ≤ length / n * (1 + part) + unit)
    (hmultiple : multiple ≤ (n - 1) * step * (1 + part) + unit) : multiple ≤ exact := by
  have hpos : 0 < n := zero_lt_one.trans_le hn
  have hnonneg : 0 ≤ exact := le_trans (by positivity) hexact
  have hless : 1 / n ≤ 1 := (div_le_one hpos).mpr hn
  have hfraction : (n - 1) / n = 1 - 1 / n := by rw [sub_div, div_self hpos.ne']
  -- what is rounded of the length is an eighth of the share that one step has of it
  rw [← le_div_iff₀ hpos] at hshare
  have hsmall : part ≤ 1 / 8 := by linarith
  have hcube : (1 - 1 / n) * (1 + part) ^ 3 ≤ 1 - 1 / n / 2 := by
    have hbound : (1 + part) ^ 3 ≤ 1 + 4 * part := by
      have hsquare : part ^ 2 ≤ part / 8 := by nlinarith
      have hthird : part ^ 3 ≤ part / 8 := by nlinarith
      linarith [show (1 + part) ^ 3 = 1 + 3 * part + 3 * part ^ 2 + part ^ 3 by ring]
    calc (1 - 1 / n) * (1 + part) ^ 3 ≤ (1 - 1 / n) * (1 + 4 * part) :=
          mul_le_mul_of_nonneg_left hbound (by linarith)
      _ ≤ 1 - 1 / n / 2 := by nlinarith
  have hsquare : (1 - 1 / n) * (1 + part) ^ 2 ≤ 1 := by
    have hpower : (1 + part) ^ 2 ≤ (1 + part) ^ 3 := pow_le_pow_right₀ (by linarith) (by decide)
    calc (1 - 1 / n) * (1 + part) ^ 2 ≤ (1 - 1 / n) * (1 + part) ^ 3 :=
          mul_le_mul_of_nonneg_left hpower (by linarith)
      _ ≤ 1 := by linarith [one_div_pos.mpr hpos]
  have hcount : (n - 1) * (1 + part) ≤ n := by
    refine sub_one_mul_le hpart ?_
    rw [← le_div_iff₀ hpos]
    linarith
  have hroom : 4 * n * unit ≤ exact * (1 / n / 2) := by
    rw [div_div, mul_one_div, le_div_iff₀ (by positivity)]
    calc 4 * n * unit * (n * 2) = 8 * n ^ 2 * unit := by ring
      _ ≤ exact := hexact
  have hstep' : step ≤ (exact * (1 + part) + unit) / n * (1 + part) + unit := hstep.trans (by gcongr)
  have hbefore : 0 ≤ n - 1 := sub_nonneg.mpr hn
  calc multiple ≤ (n - 1) * step * (1 + part) + unit := hmultiple
    _ ≤ (n - 1) * ((exact * (1 + part) + unit) / n * (1 + part) + unit) * (1 + part) + unit := by gcongr
    _ = exact * ((n - 1) / n * (1 + part) ^ 3) + (n - 1) / n * (1 + part) ^ 2 * unit +
          (n - 1) * (1 + part) * unit + unit := by ring
    _ ≤ exact * (1 - 1 / n / 2) + 1 * unit + n * unit + unit := by
        rw [hfraction]
        gcongr
    _ ≤ exact := by nlinarith

/-! ## The step -/

/-- The length of a stretch, rounded. -/
theorem length_spec (h : domain.isFinite = true)
    (hordered : rational domain.lower ≤ rational domain.upper)
    (hlength : (domain.upper - domain.lower).isFinite = true) :
    0 ≤ rational (domain.upper - domain.lower) ∧
      rational (domain.upper - domain.lower) ≤
        (rational domain.upper - rational domain.lower) * (1 + roundoff) + underflow := by
  obtain ⟨hlower, hupper⟩ := Interval.isFinite_iff.mp h
  have hrounded := isRounded_sub hupper hlower
  have hexact := sub_nonneg.mpr hordered
  refine ⟨?_, hrounded.le_of_nonneg hlength hexact⟩
  rw [← rational_zero] at hexact ⊢
  exact hrounded.ge_of_ge hlength isFinite_zero hexact

/-- The step is a number if the length is, however many steps there are. -/
theorem isFinite_step (hlength : (domain.upper - domain.lower).isFinite = true) (hsteps : steps ≠ 0) :
    (domain.step steps).isFinite = true := by
  rcases ofNat_cases steps with hfinite | hinfinite
  · have hone : 1 ≤ rational (ofNat steps) := by
      have hcast : (1 : Rat) ≤ steps := by exact_mod_cast Nat.one_le_iff_ne_zero.mpr hsteps
      rw [← rational_one] at hcast ⊢
      exact (isRounded_ofNat steps).ge_of_ge hfinite isFinite_one hcast
    have hpos := zero_lt_one.trans_le hone
    refine (isRounded_div hlength hfinite hpos.ne').isFinite hlength ?_
    rw [abs_div, abs_of_pos hpos]
    exact (div_le_self (abs_nonneg _) hone).trans (le_add_of_nonneg_right zero_le_one)
  · have hrounded : IsRounded (domain.step steps) 0 := by
      rw [Interval.step, hinfinite]
      exact isRounded_div_infinity hlength
    refine hrounded.isFinite isFinite_zero ?_
    rw [abs_zero]
    positivity

theorem step_spec (hlength : (domain.upper - domain.lower).isFinite = true)
    (hnonneg : 0 ≤ rational (domain.upper - domain.lower)) (hsteps : steps ≠ 0) (hmost : steps ≤ 2 ^ 50) :
    0 ≤ rational (domain.step steps) ∧
      rational (domain.step steps) ≤
        rational (domain.upper - domain.lower) / steps * (1 + roundoff) + underflow := by
  have hfinite := isFinite_step hlength hsteps
  obtain ⟨hcount, hexact⟩ := rational_ofNat (n := steps) (by omega)
  have hne : rational (ofNat steps) ≠ 0 := by
    rw [hexact]
    exact_mod_cast hsteps
  have hrounded := isRounded_div hlength hcount hne
  rw [hexact] at hrounded
  exact ⟨step_nonneg hsteps hnonneg hfinite, hrounded.le_of_nonneg hfinite (by positivity)⟩

/-! ## The first place -/

/-- Nothing is added to a number by a number of value zero, but negative zero loses its sign. -/
theorem add_of_rational_eq_zero {y : Float} (hx : x.isFinite = true) (hy : y.isFinite = true)
    (hzero : rational y = 0) : (x + y == x) = true ∧ (x ≠ -0 → x + y = x) := by
  have hrounded := isRounded_add hx hy
  rw [hzero, add_zero] at hrounded
  have hfinite : (x + y).isFinite = true :=
    hrounded.isFinite hx (le_add_of_nonneg_right zero_le_one)
  have hsame : rational (x + y) = rational x :=
    le_antisymm (hrounded.le_of_le hfinite hx le_rfl) (hrounded.ge_of_ge hfinite hx le_rfl)
  refine ⟨(beq_iff hfinite hx).mpr hsame, fun hne => ?_⟩
  by_cases hvalue : rational x = 0
  · -- a zero that is not negative is positive, and either zero leaves it as it is
    obtain rfl := (eq_zero_or_of_rational_eq hx hvalue).resolve_right hne
    rcases eq_zero_or_of_rational_eq hy hzero with rfl | rfl
    · decide
    · decide
  · exact (eq_of_rational_eq hx hfinite hvalue hsame.symm).symm

/-- **The first `gridPoint`** is the lower end. -/
theorem gridPoint_zero (h : domain.isFinite = true)
    (hlength : (domain.upper - domain.lower).isFinite = true) (hsteps : steps ≠ 0) :
    (gridPoint domain steps 0 == domain.lower) = true ∧
      (domain.lower ≠ -0 → gridPoint domain steps 0 = domain.lower) := by
  obtain ⟨hlower, -⟩ := Interval.isFinite_iff.mp h
  have hstep := isFinite_step hlength hsteps
  obtain ⟨hcount, hnone⟩ := rational_ofNat (n := 0) (by decide)
  have hrounded := isRounded_mul hcount hstep
  rw [hnone, Nat.cast_zero, zero_mul] at hrounded
  have hfinite : (ofNat 0 * domain.step steps).isFinite = true := by
    refine hrounded.isFinite isFinite_zero ?_
    rw [abs_zero]
    positivity
  have hzero : rational (ofNat 0 * domain.step steps) = 0 := by
    rw [← rational_zero] at hrounded ⊢
    exact le_antisymm (hrounded.le_of_le hfinite isFinite_zero le_rfl)
      (hrounded.ge_of_ge hfinite isFinite_zero le_rfl)
  rw [gridPoint_of_lt (Nat.pos_of_ne_zero hsteps)]
  exact add_of_rational_eq_zero hlower hfinite hzero

/-! ## Every place -/

theorem one_le_steps (hsteps : steps ≠ 0) : (1 : Rat) ≤ steps := by
  exact_mod_cast Nat.one_le_iff_ne_zero.mpr hsteps

/-- Of the length of the stretch, the share of a step is some times what is rounded. -/
theorem share_le (hmost : steps ≤ 2 ^ 50) : 8 * roundoff * steps ≤ 1 := by
  have hcast : (steps : Rat) ≤ 2 ^ 50 := by exact_mod_cast hmost
  calc 8 * roundoff * steps ≤ 8 * roundoff * 2 ^ 50 :=
        mul_le_mul_of_nonneg_left hcast (mul_nonneg (by norm_num) roundoff_pos.le)
    _ = 1 := by norm_num [roundoff]

/-- In front of the last place there is a step at least. -/
theorem multiple_le (hi : i < steps) (hstep : 0 ≤ step) : i * step ≤ (steps - 1) * step := by
  refine mul_le_mul_of_nonneg_right ?_ hstep
  have hcast : ((i + 1 : Nat) : Rat) ≤ steps := by exact_mod_cast hi
  push_cast at hcast
  linarith

/-- The multiple of a step, before it is rounded, is hardly more than the length: what the step is rounded
by does not make up for the step that is left out. -/
theorem multiple_le_add_one (hsteps : steps ≠ 0) (hmost : steps ≤ 2 ^ 50) (hnonneg : 0 ≤ length)
    (hstep : step ≤ length / steps * (1 + roundoff) + underflow) : (steps - 1) * step ≤ length + 1 := by
  have hn := one_le_steps hsteps
  have hpos : (0 : Rat) < steps := zero_lt_one.trans_le hn
  have hshare := share_le hmost
  have hcast : (steps : Rat) ≤ 2 ^ 50 := by exact_mod_cast hmost
  have hcount : ((steps : Rat) - 1) * (1 + roundoff) ≤ steps :=
    sub_one_mul_le roundoff_pos.le (by linarith [mul_pos roundoff_pos hpos])
  have hunits : ((steps : Rat) - 1) * underflow ≤ 1 := by
    calc ((steps : Rat) - 1) * underflow ≤ 2 ^ 50 * underflow :=
          mul_le_mul_of_nonneg_right (by linarith) underflow_pos.le
      _ ≤ 2 ^ 50 * 2 ^ (-50 : Int) :=
          mul_le_mul_of_nonneg_left (zpow_le_zpow_right₀ one_le_two (by decide)) (by norm_num)
      _ = 1 := by norm_num
  calc (steps - 1) * step ≤ (steps - 1) * (length / steps * (1 + roundoff) + underflow) :=
        mul_le_mul_of_nonneg_left hstep (sub_nonneg.mpr hn)
    _ = length * ((steps - 1) * (1 + roundoff) / steps) + (steps - 1) * underflow := by ring
    _ ≤ length * 1 + 1 :=
        add_le_add (mul_le_mul_of_nonneg_left ((div_le_one hpos).mpr hcount) hnonneg) hunits
    _ = length + 1 := by rw [mul_one]

/-- What is rounded from nothing, or less, is not more than nothing. -/
theorem rational_nonpos {z : Float} {value : Rat} (h : IsRounded z value) (hz : z.isFinite = true)
    (hle : value ≤ 0) : rational z ≤ 0 := by
  rw [← rational_zero] at hle ⊢
  exact h.le_of_le hz isFinite_zero hle

/-- A stretch without a length has a step without a length. -/
theorem step_nonpos (h : domain.isFinite = true) (hsame : rational domain.upper = rational domain.lower)
    (hlength : (domain.upper - domain.lower).isFinite = true) (hsteps : steps ≠ 0)
    (hmost : steps ≤ 2 ^ 50) : rational (domain.step steps) ≤ 0 := by
  obtain ⟨hlower, hupper⟩ := Interval.isFinite_iff.mp h
  have hnone := rational_nonpos (isRounded_sub hupper hlower) hlength (by rw [hsame, sub_self])
  obtain ⟨hcount, hexact⟩ := rational_ofNat (n := steps) (by omega)
  have hpos : 0 < rational (ofNat steps) := by
    rw [hexact]
    exact zero_lt_one.trans_le (one_le_steps hsteps)
  exact rational_nonpos (isRounded_div hlength hcount hpos.ne') (isFinite_step hlength hsteps)
    (div_nonpos_of_nonpos_of_nonneg hnone hpos.le)

/-- **A multiple of the `step`** is a number, and where the stretch `Resolves` its steps it is not longer than
the stretch. -/
theorem multiple_spec (h : domain.isFinite = true)
    (hordered : rational domain.lower ≤ rational domain.upper)
    (hlength : (domain.upper - domain.lower).isFinite = true) (hroom : domain.Resolves steps)
    (hi : i < steps) :
    (ofNat i * domain.step steps).isFinite = true ∧ 0 ≤ rational (ofNat i * domain.step steps) ∧
      rational (ofNat i * domain.step steps) ≤ rational domain.upper - rational domain.lower := by
  obtain ⟨hmost, hroom⟩ := hroom
  have hsteps : steps ≠ 0 := Nat.ne_zero_of_lt hi
  have hstepFinite := isFinite_step hlength hsteps
  obtain ⟨hnonneg, hlengthLe⟩ := length_spec h hordered hlength
  obtain ⟨hstep, hstepLe⟩ := step_spec hlength hnonneg hsteps hmost
  obtain ⟨hcount, hexact⟩ := rational_ofNat (n := i) (by omega)
  have hrounded := isRounded_mul hcount hstepFinite
  rw [hexact] at hrounded
  have hproduct : 0 ≤ i * rational (domain.step steps) := mul_nonneg (Nat.cast_nonneg _) hstep
  have hproductLe := multiple_le hi hstep
  have hfinite : (ofNat i * domain.step steps).isFinite = true := by
    refine hrounded.isFinite hlength ?_
    rw [abs_of_nonneg hproduct, abs_of_nonneg hnonneg]
    exact hproductLe.trans (multiple_le_add_one hsteps hmost hnonneg hstepLe)
  refine ⟨hfinite, ?_, ?_⟩
  · rw [← rational_zero] at hproduct ⊢
    exact hrounded.ge_of_ge hfinite isFinite_zero hproduct
  · rcases hroom with hsame | hroom
    · rw [hsame, sub_self]
      exact rational_nonpos hrounded hfinite (mul_nonpos_of_nonneg_of_nonpos (Nat.cast_nonneg _)
        (step_nonpos h hsame hlength hsteps hmost))
    · refine multiple_le_length (one_le_steps hsteps) roundoff_pos.le underflow_pos.le
        (share_le hmost) hroom hlengthLe hstepLe ((hrounded.le_of_nonneg hfinite hproduct).trans ?_)
      exact add_le_add_left (mul_le_mul_of_nonneg_right hproductLe (by linarith [roundoff_pos])) _

/-- **Every `gridPoint`** is between the ends of a stretch that `Resolves` its steps. -/
theorem gridPoint_encloses (h : domain.isFinite = true)
    (hordered : rational domain.lower ≤ rational domain.upper)
    (hlength : (domain.upper - domain.lower).isFinite = true) (hroom : domain.Resolves steps)
    (hi : i ≤ steps) :
    (gridPoint domain steps i).isFinite = true ∧ domain.Encloses (gridPoint domain steps i) := by
  obtain ⟨hlower, hupper⟩ := Interval.isFinite_iff.mp h
  rcases hi.lt_or_eq with hi | rfl
  · obtain ⟨hmultiple, hnonneg, hle⟩ := multiple_spec h hordered hlength hroom hi
    have hrounded := isRounded_add hlower hmultiple
    rw [gridPoint_of_lt hi]
    have hfinite : (domain.lower + ofNat i * domain.step steps).isFinite = true := by
      -- what is between two numbers is not beyond all numbers
      have hbetween := abs_le_max_abs_abs (le_add_of_nonneg_right hnonneg) (le_sub_iff_add_le'.mp hle)
      rcases le_max_iff.mp hbetween with hle | hle
      · exact hrounded.isFinite hlower (hle.trans (le_add_of_nonneg_right zero_le_one))
      · exact hrounded.isFinite hupper (hle.trans (le_add_of_nonneg_right zero_le_one))
    refine ⟨hfinite, (Interval.encloses_iff h hfinite).mpr ⟨?_, ?_⟩⟩
    · exact hrounded.ge_of_ge hfinite hlower (le_add_of_nonneg_right hnonneg)
    · exact hrounded.le_of_le hfinite hupper (le_sub_iff_add_le'.mp hle)
  · rw [gridPoint_last]
    exact ⟨hupper, (Interval.encloses_iff h hupper).mpr ⟨hordered, le_rfl⟩⟩

/-! ## The points of a graph -/

theorem curve_of_compile (hcompile : compile expression = .ok tree) (hdomain : domain.isFinite = true)
    (hsteps : steps ≠ 0) :
    curve expression domain steps =
      ((List.range (steps + 1)).map (gridPoint domain.ordered steps)).filterMap tree.pointAt? := by
  unfold curve grid
  rw [hcompile]
  simp only [hdomain, hsteps, if_true, if_false]

theorem pointAt?_of_eval {y : Float} (h : tree.eval (some x) = .ok y) : tree.pointAt? x = some ⟨x, y⟩ := by
  unfold Expr.pointAt?
  rw [h]

/-- **The points of a graph cover its stretch.** The last point of the `curve` is at the upper end if there is
a value. Where the length of the stretch is finite, the first point is at the lower end if there is a value at
the first place, which is that end. Where the stretch `Resolves` its steps as well, it `Encloses` every point
and the points stand in order. -/
theorem curve_covers (expression : String) (tree : Expr) (domain : Interval) (steps : Nat)
    (hcompile : compile expression = .ok tree) (hdomain : domain.isFinite = true) (hsteps : steps ≠ 0) :
    (∀ y, tree.eval (some domain.ordered.upper) = .ok y →
      (curve expression domain steps).getLast? = some ⟨domain.ordered.upper, y⟩) ∧
    ((domain.ordered.upper - domain.ordered.lower).isFinite = true →
      (∃ first, (first == domain.ordered.lower) = true ∧
        (domain.ordered.lower ≠ -0 → first = domain.ordered.lower) ∧
        ∀ y, tree.eval (some first) = .ok y →
          (curve expression domain steps).head? = some ⟨first, y⟩) ∧
      (domain.ordered.Resolves steps →
        (∀ p ∈ curve expression domain steps, p.x.isFinite = true ∧ domain.ordered.Encloses p.x) ∧
        (curve expression domain steps).Pairwise fun p q => p.x ≤ q.x)) := by
  obtain ⟨hfinite, hordered⟩ := Interval.ordered_spec hdomain
  have hcurve := curve_of_compile hcompile hdomain hsteps
  refine ⟨fun y hy => ?_, fun hlength => ⟨⟨gridPoint domain.ordered steps 0, ?_⟩, fun hroom => ?_⟩⟩
  · rw [hcurve, List.range_succ, List.map_append, List.filterMap_append, List.map_singleton,
      gridPoint_last, List.filterMap_cons_some (pointAt?_of_eval hy), List.filterMap_nil]
    exact List.getLast?_concat
  · obtain ⟨hsame, hequal⟩ := gridPoint_zero hfinite hlength hsteps
    refine ⟨hsame, hequal, fun y hy => ?_⟩
    rw [hcurve, List.range_succ_eq_map, List.map_cons, List.filterMap_cons_some (pointAt?_of_eval hy)]
    rfl
  · have hplaces : ∀ p ∈ curve expression domain steps,
        p.x.isFinite = true ∧ domain.ordered.Encloses p.x := by
      intro p hp
      rw [hcurve, List.mem_filterMap] at hp
      obtain ⟨x, hx, hpoint⟩ := hp
      obtain ⟨i, hi, rfl⟩ := List.mem_map.mp hx
      rw [Expr.pointAt?_x hpoint]
      exact gridPoint_encloses hfinite hordered hlength hroom (Nat.lt_succ_iff.mp (List.mem_range.mp hi))
    refine ⟨hplaces, ?_⟩
    have hend : ∀ i < steps, gridPoint domain.ordered steps i ≤ domain.ordered.upper := fun i hi =>
      (gridPoint_encloses hfinite hordered hlength hroom hi.le).2.2
    exact (curve_pairwise hend).imp_of_mem fun hp hq hnot => hnot (hplaces _ hp).1 (hplaces _ hq).1

/-- A reciprocal has values at both ends and none in between. -/
theorem curve_covers_reciprocal :
    (curve "1/x" ⟨1, -1⟩ 2).head? = some ⟨-1, -1⟩ ∧ (curve "1/x" ⟨1, -1⟩ 2).getLast? = some ⟨1, 1⟩ ∧
    (∀ p ∈ curve "1/x" ⟨1, -1⟩ 2, p.x.isFinite = true ∧ Interval.Encloses ⟨-1, 1⟩ p.x) ∧
    (curve "1/x" ⟨1, -1⟩ 2).Pairwise fun p q => p.x ≤ q.x := by
  have hordered : Interval.ordered ⟨1, -1⟩ = ⟨-1, 1⟩ := by decide +kernel
  have hroom : Interval.Resolves ⟨-1, 1⟩ 2 := by
    refine ⟨by norm_num, .inr ?_⟩
    have hunit : underflow ≤ 2 ^ (-5 : Int) := zpow_le_zpow_right₀ one_le_two (by decide)
    simp only [rational_neg isFinite_one, rational_one]
    norm_num at hunit ⊢
    linarith
  obtain ⟨hlast, hrest⟩ := curve_covers "1/x" (.binary '/' (.number 1) .variable) ⟨1, -1⟩ 2
    (by decide +kernel) (by decide +kernel) (by decide)
  rw [hordered] at hlast hrest
  obtain ⟨⟨first, -, hequal, hfirst⟩, hinside⟩ := hrest (by decide +kernel)
  obtain rfl := hequal (by decide +kernel)
  exact ⟨hfirst (-1) (by decide +kernel), hlast 1 (by decide +kernel), hinside hroom⟩

/-- The length of a stretch that is beyond all numbers: nothing is left but the last point. -/
example : curve "x" ⟨-1e308, 1e308⟩ 2 = [⟨1e308, 1e308⟩] := by decide +kernel

end

end Calculator
