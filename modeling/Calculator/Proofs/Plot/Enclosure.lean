import Calculator.Plot.Axes
import Calculator.Proofs.Number.Unit
import Calculator.Proofs.Plot.Agreement

/-!
# `Proofs.Plot.Enclosure` — the points of a graph and its axes

The heights of a graph are folded into their extent, so that the vertical axis has every point between its
ends, also where it is widened around a single height. The horizontal axis trusts the order of the points
instead: it has them between its ends because the places of a graph never decrease, however each of them is
rounded. That needs two things of a graph. There have to be points at two places, since the axis of points
at a single one is the standard stretch, wherever they are; and no place may pass the upper end, which the
multiples of a step can do when the step is so small that it is rounded by a good part of itself.

## Contents

* `Interval.Encloses` — between the ends
* `Binary64.rational_lesser`, `Binary64.rational_greater` — extremes of two numbers
* `heightRange_encloses`, `yAxis_encloses` — heights
* `gridPoint_mono`, `curve_pairwise` — places
* `axes_enclose_curve` — both axes around a graph
-/

namespace Calculator

/-- Being between the ends of a stretch, or at one of them. -/
def Interval.Encloses (interval : Interval) (x : Float) : Prop :=
  interval.lower ≤ x ∧ x ≤ interval.upper

instance (interval : Interval) (x : Float) : Decidable (interval.Encloses x) :=
  inferInstanceAs (Decidable (_ ∧ _))

/-! ## Extremes of two numbers -/

namespace Binary64

variable {x y : Float} {n m : Nat}

theorem isNaN_of_isFinite (h : x.isFinite = true) : x.isNaN = false := by
  have hfinite : x.toModel.unpack.isFinite = true := h
  show x.toModel.unpack.isNaN = false
  revert hfinite
  cases x.toModel.unpack <;> intro hfinite <;> first | rfl | exact absurd hfinite Bool.false_ne_true

theorem rational_lesser (hx : x.isFinite = true) (hy : y.isFinite = true) :
    (lesser x y).isFinite = true ∧ rational (lesser x y) = min (rational x) (rational y) := by
  unfold lesser
  rw [if_neg (by rw [isNaN_of_isFinite hx]; decide), if_neg (by rw [isNaN_of_isFinite hy]; decide)]
  by_cases hlt : x < y
  · rw [if_pos hlt]
    exact ⟨hx, (min_eq_left ((lt_iff hx hy).mp hlt).le).symm⟩
  · rw [if_neg hlt]
    exact ⟨hy, (min_eq_right (not_lt.mp ((lt_iff hx hy).not.mp hlt))).symm⟩

theorem rational_greater (hx : x.isFinite = true) (hy : y.isFinite = true) :
    (greater x y).isFinite = true ∧ rational (greater x y) = max (rational x) (rational y) := by
  unfold greater
  rw [if_neg (by rw [isNaN_of_isFinite hx]; decide), if_neg (by rw [isNaN_of_isFinite hy]; decide)]
  by_cases hlt : y < x
  · rw [if_pos hlt]
    exact ⟨hx, (max_eq_left ((lt_iff hy hx).mp hlt).le).symm⟩
  · rw [if_neg hlt]
    exact ⟨hy, (max_eq_right (not_lt.mp ((lt_iff hy hx).not.mp hlt))).symm⟩

end Binary64

section

open Binary64

variable {points rest : List GraphPoint} {extent interval : Interval} {p q : GraphPoint} {x y : Float}
  {expression : String} {domain : Interval} {steps i j : Nat}

/-! ## Heights -/

theorem Interval.isFinite_iff :
    interval.isFinite = true ↔ interval.lower.isFinite = true ∧ interval.upper.isFinite = true :=
  Bool.and_eq_true_iff

theorem Interval.encloses_iff (h : interval.isFinite = true) (hx : x.isFinite = true) :
    interval.Encloses x ↔
      rational interval.lower ≤ rational x ∧ rational x ≤ rational interval.upper := by
  obtain ⟨hlower, hupper⟩ := Interval.isFinite_iff.mp h
  rw [Interval.Encloses, le_iff hlower hx, le_iff hx hupper]

/-- An extent with one more height. -/
def Interval.widen (extent : Interval) (y : Float) : Interval :=
  ⟨lesser extent.lower y, greater extent.upper y⟩

theorem Interval.isFinite_widen (h : extent.isFinite = true) (hy : y.isFinite = true) :
    (extent.widen y).isFinite = true := by
  obtain ⟨hlower, hupper⟩ := Interval.isFinite_iff.mp h
  exact Interval.isFinite_iff.mpr ⟨(rational_lesser hlower hy).1, (rational_greater hupper hy).1⟩

theorem Interval.encloses_widen (h : extent.isFinite = true) (hy : y.isFinite = true) :
    (extent.widen y).Encloses y := by
  obtain ⟨hlower, hupper⟩ := Interval.isFinite_iff.mp h
  rw [Interval.encloses_iff (Interval.isFinite_widen h hy) hy]
  constructor
  · exact (rational_lesser hlower hy).2.trans_le (min_le_right _ _)
  · exact (le_max_right _ _).trans_eq (rational_greater hupper hy).2.symm

theorem Interval.Encloses.widen (hx : extent.Encloses x) (h : extent.isFinite = true)
    (hfinite : x.isFinite = true) (hy : y.isFinite = true) : (extent.widen y).Encloses x := by
  obtain ⟨hlower, hupper⟩ := Interval.isFinite_iff.mp h
  rw [Interval.encloses_iff h hfinite] at hx
  rw [Interval.encloses_iff (Interval.isFinite_widen h hy) hfinite]
  constructor
  · exact (rational_lesser hlower hy).2.trans_le ((min_le_left _ _).trans hx.1)
  · exact (hx.2.trans (le_max_left _ _)).trans_eq (rational_greater hupper hy).2.symm

/-- The fold keeps what is enclosed, and encloses what it passes. -/
theorem foldl_widen (h : extent.isFinite = true) (hrest : ∀ p ∈ rest, p.y.isFinite = true) :
    let final := rest.foldl (fun extent p => extent.widen p.y) extent
    final.isFinite = true ∧ (∀ x, x.isFinite = true → extent.Encloses x → final.Encloses x) ∧
      ∀ p ∈ rest, final.Encloses p.y := by
  induction rest generalizing extent with
  | nil => exact ⟨h, fun x _ hx => hx, fun p hp => absurd hp List.not_mem_nil⟩
  | cons next rest ih =>
      have hnext := hrest next List.mem_cons_self
      obtain ⟨hfinite, hkeep, henclose⟩ := ih (Interval.isFinite_widen h hnext)
        fun p hp => hrest p (List.mem_cons_of_mem _ hp)
      refine ⟨hfinite, fun x hx hin => hkeep x hx (hin.widen h hx hnext), fun p hp => ?_⟩
      rcases List.mem_cons.mp hp with rfl | hp
      · exact hkeep _ hnext (Interval.encloses_widen h hnext)
      · exact henclose p hp

/-- **The `heightRange` of the points** has every one of them between its ends. -/
theorem heightRange_encloses (h : heightRange points = some extent)
    (hfinite : ∀ p ∈ points, p.y.isFinite = true) :
    extent.isFinite = true ∧ ∀ p ∈ points, extent.Encloses p.y := by
  cases points with
  | nil => exact absurd h (by simp [heightRange])
  | cons first rest =>
      have hfirst := hfinite first List.mem_cons_self
      have hsingle : (⟨first.y, first.y⟩ : Interval).isFinite = true :=
        Interval.isFinite_iff.mpr ⟨hfirst, hfirst⟩
      have hself : (⟨first.y, first.y⟩ : Interval).Encloses first.y :=
        (Interval.encloses_iff hsingle hfirst).mpr ⟨le_rfl, le_rfl⟩
      obtain ⟨hfinal, hkeep, henclose⟩ := foldl_widen hsingle
        fun p hp => hfinite p (List.mem_cons_of_mem _ hp)
      obtain rfl := Option.some.inj h
      refine ⟨hfinal, fun p hp => ?_⟩
      rcases List.mem_cons.mp hp with rfl | hp
      · exact hkeep _ hfirst hself
      · exact henclose p hp

/-- One unit on either side of a number does not leave it out, even where a unit is too little to be
told. -/
theorem encloses_unit_around (hx : x.isFinite = true) :
    let around : Interval := ⟨x - 1, x + 1⟩
    around.isFinite = true ∧ rational around.lower ≤ rational x ∧
      rational x ≤ rational around.upper := by
  obtain ⟨hlower, hupper, hbelow, habove⟩ := isFinite_unit hx
  refine ⟨Interval.isFinite_iff.mpr ⟨hlower, hupper⟩, ?_, ?_⟩
  · exact hbelow.le_of_le hlower hx (by linarith)
  · exact habove.ge_of_ge hupper hx (by linarith)

/-- **The vertical axis** (`yAxis`) has every point between its ends, at one height or at many. -/
theorem yAxis_encloses (hfinite : ∀ p ∈ points, p.y.isFinite = true) (hp : p ∈ points) :
    (yAxis points).Encloses p.y := by
  obtain ⟨extent, hextent⟩ : ∃ extent, heightRange points = some extent := by
    cases points with
    | nil => exact absurd hp List.not_mem_nil
    | cons first rest => exact ⟨_, rfl⟩
  obtain ⟨hfinal, henclose⟩ := heightRange_encloses hextent hfinite
  obtain ⟨hlower, hupper⟩ := Interval.isFinite_iff.mp hfinal
  have hy := hfinite p hp
  unfold yAxis
  rw [hextent]
  show Interval.Encloses (if extent.lower < extent.upper then extent else _) p.y
  by_cases hlt : extent.lower < extent.upper
  · rw [if_pos hlt]
    exact henclose p hp
  · -- all points are at one height
    rw [if_neg hlt]
    obtain ⟨hbelow, habove⟩ := (Interval.encloses_iff hfinal hy).mp (henclose p hp)
    have hflat := not_lt.mp ((lt_iff hlower hupper).not.mp hlt)
    obtain ⟨hunit, hleft, hright⟩ := encloses_unit_around hlower
    rw [Interval.encloses_iff hunit hy]
    exact ⟨hleft.trans hbelow, (habove.trans hflat).trans hright⟩

/-! ## Places -/

theorem Interval.ordered_spec (h : domain.isFinite = true) :
    domain.ordered.isFinite = true ∧
      rational domain.ordered.lower ≤ rational domain.ordered.upper := by
  obtain ⟨hlower, hupper⟩ := Interval.isFinite_iff.mp h
  unfold Interval.ordered
  by_cases hlt : domain.upper < domain.lower
  · rw [if_pos hlt]
    exact ⟨Interval.isFinite_iff.mpr ⟨hupper, hlower⟩, ((lt_iff hupper hlower).mp hlt).le⟩
  · rw [if_neg hlt]
    exact ⟨h, not_lt.mp ((lt_iff hupper hlower).not.mp hlt)⟩

/-- The length of one step is not negative, whatever it is rounded to. -/
theorem step_nonneg {length : Float} (hsteps : steps ≠ 0) (hlength : 0 ≤ rational length)
    (h : (length / ofNat steps).isFinite = true) : 0 ≤ rational (length / ofNat steps) := by
  have hrounded : ∃ value, 0 ≤ value ∧ IsRounded (length / ofNat steps) value := by
    obtain ⟨hfinite, hsteps' | hzero⟩ := isFinite_of_div h
    · have hone : (1 : Rat) ≤ rational (ofNat steps) := by
        have hcast : (1 : Rat) ≤ steps := by exact_mod_cast Nat.pos_of_ne_zero hsteps
        rw [← rational_one] at hcast ⊢
        exact (isRounded_ofNat steps).ge_of_ge hsteps' isFinite_one hcast
      exact ⟨_, div_nonneg hlength (zero_le_one.trans hone),
        isRounded_div hfinite hsteps' (zero_lt_one.trans_le hone).ne'⟩
    · exact ⟨0, le_rfl, hzero⟩
  obtain ⟨value, hvalue, hrounded⟩ := hrounded
  rw [← rational_zero] at hvalue ⊢
  exact hrounded.ge_of_ge h isFinite_zero hvalue

/-- **Places do not decrease** before the last `gridPoint`. -/
theorem gridPoint_mono (h : domain.isFinite = true)
    (hordered : rational domain.lower ≤ rational domain.upper) (hij : i ≤ j) (hj : j < steps)
    (hfirst : (gridPoint domain steps i).isFinite = true)
    (hsecond : (gridPoint domain steps j).isFinite = true) :
    rational (gridPoint domain steps i) ≤ rational (gridPoint domain steps j) := by
  obtain ⟨hlower, hupper⟩ := Interval.isFinite_iff.mp h
  have hplace : ∀ k < steps, gridPoint domain steps k =
      domain.lower + ofNat k * ((domain.upper - domain.lower) / ofNat steps) :=
    fun k hk => if_neg hk.ne
  rw [hplace i (hij.trans_lt hj)] at hfirst ⊢
  rw [hplace j hj] at hsecond ⊢
  -- what a finite place is computed from is finite
  obtain ⟨-, hproduct⟩ := isFinite_of_add hfirst
  obtain ⟨-, hproduct'⟩ := isFinite_of_add hsecond
  obtain ⟨hi, hstep⟩ := isFinite_of_mul hproduct
  obtain ⟨hj', -⟩ := isFinite_of_mul hproduct'
  obtain ⟨hlength, -⟩ := isFinite_of_div hstep
  have hdifference : 0 ≤ rational (domain.upper - domain.lower) := by
    have hexact : rational 0 ≤ rational domain.upper - rational domain.lower := by
      rw [rational_zero]
      exact sub_nonneg.mpr hordered
    rw [← rational_zero]
    exact (isRounded_sub hupper hlower).ge_of_ge hlength isFinite_zero hexact
  have hnonneg := step_nonneg (Nat.ne_zero_of_lt hj) hdifference hstep
  -- every rounding on the way keeps the order
  have hcount : rational (ofNat i) ≤ rational (ofNat j) :=
    (isRounded_ofNat i).mono (isRounded_ofNat j) hi hj' (by exact_mod_cast hij)
  have hmultiple := (isRounded_mul hi hstep).mono (isRounded_mul hj' hstep) hproduct hproduct'
    (mul_le_mul_of_nonneg_right hcount hnonneg)
  exact (isRounded_add hlower hproduct).mono (isRounded_add hlower hproduct') hfirst hsecond
    (add_le_add_right hmultiple _)

/-- One place is not right of another. Where a place is not finite, nothing is said. -/
def NotAfter (x y : Float) : Prop := x.isFinite = true → y.isFinite = true → x ≤ y

theorem grid_pairwise (h : domain.isFinite = true)
    (hordered : rational domain.lower ≤ rational domain.upper)
    (hend : ∀ i < steps, gridPoint domain steps i ≤ domain.upper) :
    (grid domain steps).Pairwise NotAfter := by
  unfold grid
  by_cases hsteps : steps = 0
  · rw [if_pos hsteps]
    exact List.pairwise_singleton _ _
  · rw [if_neg hsteps, List.pairwise_map]
    refine List.pairwise_lt_range.imp_of_mem fun {i j} hi hj hlt hfirst hsecond => ?_
    rw [List.mem_range] at hi hj
    -- the last place is the upper end itself, not a multiple of the step
    rcases (Nat.le_of_lt_succ hj).lt_or_eq with hj | rfl
    · exact (le_iff hfirst hsecond).mpr (gridPoint_mono h hordered hlt.le hj hfirst hsecond)
    · rw [show gridPoint domain j j = domain.upper from if_pos rfl]
      exact hend i hlt

/-- The points of a graph stand in the order of their places. -/
theorem curve_pairwise
    (hend : ∀ i < steps, gridPoint domain.ordered steps i ≤ domain.ordered.upper) :
    (curve expression domain steps).Pairwise fun p q => NotAfter p.x q.x := by
  unfold curve
  cases compile expression with
  | error e => exact List.Pairwise.nil
  | ok tree =>
      show List.Pairwise _ (if domain.isFinite then _ else _)
      by_cases hdomain : domain.isFinite = true
      · rw [if_pos hdomain, List.pairwise_filterMap]
        obtain ⟨hfinite, hordered⟩ := Interval.ordered_spec hdomain
        refine (grid_pairwise hfinite hordered hend).imp fun hxy p hp q hq => ?_
        rw [Expr.pointAt?_x hp, Expr.pointAt?_x hq]
        exact hxy
      · rw [if_neg hdomain]
        exact List.Pairwise.nil

/-! ## The axes -/

theorem xAxis_eq (hne : points ≠ []) :
    xAxis points =
      if (points.head hne).x < (points.getLast hne).x then
        ⟨(points.head hne).x, (points.getLast hne).x⟩
      else Interval.standard := by
  unfold xAxis
  rw [List.head?_eq_some_head hne, List.getLast?_eq_some_getLast hne]

/-- **The horizontal axis** (`xAxis`) has every point between its ends if they stand in order and not all at
one place. -/
theorem xAxis_encloses (hordered : points.Pairwise fun p q => NotAfter p.x q.x)
    (hfinite : ∀ p ∈ points, p.x.isFinite = true) (hspread : ∃ p ∈ points, ∃ q ∈ points, p.x < q.x)
    (hp : p ∈ points) : (xAxis points).Encloses p.x := by
  have hne : points ≠ [] := List.ne_nil_of_mem hp
  have hself : ∀ q ∈ points, NotAfter q.x q.x := fun q _ hfirst hsecond =>
    (le_iff hfirst hsecond).mpr le_rfl
  -- first and last are the ends of the whole list, wherever in it the two places are
  have hends : ∀ q ∈ points, (points.head hne).x ≤ q.x ∧ q.x ≤ (points.getLast hne).x := by
    intro q hq
    have hq' := hfinite q hq
    have hhead := hfinite _ (List.head_mem hne)
    have hlast := hfinite _ (List.getLast_mem hne)
    exact ⟨hordered.rel_head_of_rel_head_head hq (hself _ (List.head_mem hne)) hhead hq',
      hordered.rel_getLast_of_rel_getLast_getLast hq (hself _ (List.getLast_mem hne)) hq' hlast⟩
  have hlt : (points.head hne).x < (points.getLast hne).x := by
    obtain ⟨q, hq, r, hr, hqr⟩ := hspread
    have hhead := hfinite _ (List.head_mem hne)
    have hlast := hfinite _ (List.getLast_mem hne)
    have hq' := hfinite q hq
    have hr' := hfinite r hr
    rw [lt_iff hhead hlast]
    calc rational (points.head hne).x ≤ rational q.x := (le_iff hhead hq').mp (hends q hq).1
      _ < rational r.x := (lt_iff hq' hr').mp hqr
      _ ≤ rational (points.getLast hne).x := (le_iff hr' hlast).mp (hends r hr).2
  rw [xAxis_eq hne, if_pos hlt]
  exact hends p hp

/-- **The axes of a graph** with finite points. `yAxis` encloses the height of every point. `xAxis` encloses
the place of every point if there are two places and no `gridPoint` passes the upper end of the stretch; if
there are not, it is `Interval.standard`. -/
theorem axes_enclose_curve (expression : String) (domain : Interval) (steps : Nat)
    (hfinite : ∀ p ∈ curve expression domain steps, p.x.isFinite = true ∧ p.y.isFinite = true) :
    (∀ p ∈ curve expression domain steps, (yAxis (curve expression domain steps)).Encloses p.y) ∧
    ((∀ i < steps, gridPoint domain.ordered steps i ≤ domain.ordered.upper) →
      (∃ p ∈ curve expression domain steps, ∃ q ∈ curve expression domain steps, p.x < q.x) →
      ∀ p ∈ curve expression domain steps, (xAxis (curve expression domain steps)).Encloses p.x) ∧
    ((∀ p ∈ curve expression domain steps, ∀ q ∈ curve expression domain steps, ¬p.x < q.x) →
      xAxis (curve expression domain steps) = Interval.standard) := by
  refine ⟨fun p hp => ?_, fun hend hspread p hp => ?_, fun hsame => ?_⟩
  · exact yAxis_encloses (fun p hp => (hfinite p hp).2) hp
  · exact xAxis_encloses (curve_pairwise hend) (fun p hp => (hfinite p hp).1) hspread hp
  · by_cases hempty : curve expression domain steps = []
    · rw [hempty]
      rfl
    · rw [xAxis_eq hempty,
        if_neg (hsame _ (List.head_mem hempty) _ (List.getLast_mem hempty))]

/-- The graph of a root over a stretch that it has values on in part, and a single point far to the
right, which is not on its axis. -/
theorem axes_enclose_curve_root :
    (∀ p ∈ curve "sqrt(x)" ⟨4, -4⟩ 8,
      (xAxis (curve "sqrt(x)" ⟨4, -4⟩ 8)).Encloses p.x ∧
        (yAxis (curve "sqrt(x)" ⟨4, -4⟩ 8)).Encloses p.y) ∧
    xAxis (curve "x" ⟨50, 60⟩ 0) = ⟨-10, 10⟩ := by
  have hroot := axes_enclose_curve "sqrt(x)" ⟨4, -4⟩ 8 (by decide +kernel)
  have hpoint := axes_enclose_curve "x" ⟨50, 60⟩ 0 (by decide +kernel)
  obtain ⟨hheights, hplaces, -⟩ := hroot
  have hspread : ∃ p ∈ curve "sqrt(x)" ⟨4, -4⟩ 8, ∃ q ∈ curve "sqrt(x)" ⟨4, -4⟩ 8, p.x < q.x := by
    decide +kernel
  have hin := hplaces (by decide +kernel) hspread
  exact ⟨fun p hp => ⟨hin p hp, hheights p hp⟩, hpoint.2.2 (by decide +kernel)⟩

/-- Three units of the least number in five steps: a step is rounded up to a unit, and the fifth place of
the graph passes the upper end. -/
example : ¬∀ p ∈ curve "x" ⟨0, Float.ofBits 3⟩ 5,
    (xAxis (curve "x" ⟨0, Float.ofBits 3⟩ 5)).Encloses p.x := by decide +kernel

end

end Calculator
