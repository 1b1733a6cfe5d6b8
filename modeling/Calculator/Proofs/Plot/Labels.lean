import Calculator.Proofs.Number.Ordered
import Calculator.Proofs.Number.Whole
import Calculator.Proofs.Plot.Enclosure

/-!
# `Proofs.Plot.Labels` — the numerals along an axis

A label is a number that went through four steps: it was multiplied by a hundred, rounded to a whole number,
divided by a hundred and written. Each of them keeps the order, and so does the middle between the ends, for
twice an end is a number again. The first step is the only one at which something can be lost. From a
hundredth of the greatest number on its result is infinite, and so is everything that comes after it.

## Contents

* `labelText`, `labelText_cases` — a label is a numeral or says that it is infinite
* `labelText_mono` — labels keep the order
* `middle_spec` — the middle is between the ends
* `labels_ordered` — the three labels of an axis
-/

namespace Calculator

open Binary64

/-- The text of a label. -/
def labelText (x : Float) : List Char := resultNumeral (roundedForLabel x)

/-- The middle of an axis. -/
def Interval.middle (axis : Interval) : Float := (axis.lower + axis.upper) / 2

section

variable {x y z : Float} {value : Rat} {axis : Interval}

theorem labelsAlong_eq (axis : Interval) :
    labelsAlong axis = [labelText axis.lower, labelText axis.middle, labelText axis.upper] := rfl

/-! ## One label -/

theorem isFinite_hundred : (100 : Float).isFinite = true := by decide +kernel

theorem rational_hundred : rational 100 = 100 := by
  have hbits : ofFloat 100 = .finite false (25 * 2 ^ 48) (-46) := by decide +kernel
  rw [rational_of_ofFloat hbits]
  norm_num [signedValue]

theorem isFinite_two : (2 : Float).isFinite = true := by decide +kernel

theorem rational_two : rational 2 = 2 := by
  have hbits : ofFloat 2 = .finite false (2 ^ 52) (-51) := by decide +kernel
  rw [rational_of_ofFloat hbits]
  norm_num [signedValue]

/-- **What is lost on the way to a label** is what is beyond `overflow` once it is multiplied. -/
theorem isFinite_mul_hundred_iff (hx : x.isFinite = true) :
    (x * 100).isFinite = true ↔ 100 * |rational x| < overflow := by
  have hrounded := isRounded_mul hx isFinite_hundred
  rw [rational_hundred] at hrounded
  rw [hrounded.isFinite_iff, abs_mul, abs_of_pos (by norm_num : (0 : Rat) < 100), mul_comm]

/-- Everything else goes through, and what comes out is the rounded quotient. -/
theorem roundedForLabel_spec (h : (x * 100).isFinite = true) :
    (roundedForLabel x).isFinite = true ∧
      IsRounded (roundedForLabel x) (halfAway (rational (x * 100)) / 100) := by
  obtain ⟨hround, hvalue⟩ := rational_round h
  have hne : rational 100 ≠ 0 := by rw [rational_hundred]; norm_num
  have hrounded := isRounded_div hround isFinite_hundred hne
  rw [rational_hundred] at hrounded
  refine ⟨hrounded.isFinite hround ?_, hvalue ▸ hrounded⟩
  rw [abs_div, abs_of_pos (by norm_num : (0 : Rat) < 100)]
  have hnonneg := abs_nonneg (rational (Binary64.round (x * 100)))
  linarith [div_le_self hnonneg (by norm_num : (1 : Rat) ≤ 100)]

/-- What is infinite stays so. -/
theorem labelText_of_infinite {negative : Bool} (h : x * 100 = infinity negative) :
    labelText x = signed negative "inf".toList := by
  have hstays : Binary64.round (infinity negative) / 100 = infinity negative := by
    cases negative <;> decide +kernel
  have htext : resultNumeral (infinity negative) = signed negative "inf".toList := by
    cases negative <;> decide +kernel
  rw [labelText, roundedForLabel, h, hstays, htext]

theorem denoted?_infinite (negative : Bool) : denoted? (signed negative "inf".toList) = none := by
  cases negative <;> decide +kernel

/-- **A `labelText` is a numeral**, or it says that it is infinite; which of the two is decided by the
size. -/
theorem labelText_cases (hx : x.isFinite = true) :
    (100 * |rational x| < overflow ∧ ∃ a, denoted? (labelText x) = some a) ∨
      (¬100 * |rational x| < overflow ∧ ∃ negative, labelText x = signed negative "inf".toList) := by
  by_cases hlt : 100 * |rational x| < overflow
  · left
    have hfinite := (roundedForLabel_spec ((isFinite_mul_hundred_iff hx).mpr hlt)).1
    obtain ⟨_, _, _, hfinite⟩ := isFinite_iff_ofFloat.mp hfinite
    exact ⟨hlt, _, (displayed_resultNumeral hfinite).denoted⟩
  · right
    have hrounded := isRounded_mul hx isFinite_hundred
    have hge : overflow ≤ |rational x * rational 100| := by
      rwa [rational_hundred, abs_mul, abs_of_pos (by norm_num : (0 : Rat) < 100), mul_comm, ← not_lt]
    exact ⟨hlt, _, labelText_of_infinite (hrounded.eq_infinity hge)⟩

theorem denoted?_labelText_isSome_iff (hx : x.isFinite = true) :
    (denoted? (labelText x)).isSome = true ↔ 100 * |rational x| < overflow := by
  rcases labelText_cases hx with ⟨hlt, a, ha⟩ | ⟨hge, negative, htext⟩
  · exact iff_of_true (ha ▸ rfl) hlt
  · refine iff_of_false ?_ hge
    rw [htext, denoted?_infinite]
    exact Bool.false_ne_true

/-- **Labels that are numerals keep the order** (`denoted?`). -/
theorem labelText_mono {a b : Rat} (hx : x.isFinite = true) (hy : y.isFinite = true)
    (hle : rational x ≤ rational y) (ha : denoted? (labelText x) = some a)
    (hb : denoted? (labelText y) = some b) : a ≤ b := by
  have hxlt := (isFinite_mul_hundred_iff hx).mpr
    ((denoted?_labelText_isSome_iff hx).mp (Option.isSome_of_eq_some ha))
  have hylt := (isFinite_mul_hundred_iff hy).mpr
    ((denoted?_labelText_isSome_iff hy).mp (Option.isSome_of_eq_some hb))
  obtain ⟨hxfinite, hxrounded⟩ := roundedForLabel_spec hxlt
  obtain ⟨hyfinite, hyrounded⟩ := roundedForLabel_spec hylt
  -- one step after the other
  have hscaled : rational (x * 100) ≤ rational (y * 100) := by
    refine (isRounded_mul hx isFinite_hundred).mono (isRounded_mul hy isFinite_hundred) hxlt hylt ?_
    rw [rational_hundred]
    linarith
  have hwhole := halfAway_mono hscaled
  have hquotient : rational (roundedForLabel x) ≤ rational (roundedForLabel y) :=
    hxrounded.mono hyrounded hxfinite hyfinite (by linarith)
  obtain ⟨_, _, _, hxbits⟩ := isFinite_iff_ofFloat.mp hxfinite
  obtain ⟨_, _, _, hybits⟩ := isFinite_iff_ofFloat.mp hyfinite
  rw [rational_of_ofFloat hxbits, rational_of_ofFloat hybits, ← value_magnitude, ← value_magnitude]
    at hquotient
  have hshown := signedValue_shownMagnitude_mono hquotient
  rw [labelText, (displayed_resultNumeral hxbits).denoted, Option.some.injEq] at ha
  rw [labelText, (displayed_resultNumeral hybits).denoted, Option.some.injEq] at hb
  exact ha ▸ hb ▸ hshown

/-! ## The middle -/

theorem isFinite_middle (h : axis.isFinite = true)
    (hlt : |rational axis.lower + rational axis.upper| < overflow) : axis.middle.isFinite = true := by
  obtain ⟨hlower, hupper⟩ := Interval.isFinite_iff.mp h
  have hfinite := (isRounded_add hlower hupper).isFinite_iff.mpr hlt
  have hne : rational 2 ≠ 0 := by rw [rational_two]; norm_num
  refine (isRounded_div hfinite isFinite_two hne).isFinite hfinite ?_
  rw [rational_two, abs_div, abs_two]
  linarith [half_le_self (abs_nonneg (rational (axis.lower + axis.upper)))]

/-- **The label of `Interval.middle`** is a numeral as well, or says that it is infinite. A numeral is the
label of a number. -/
theorem labelText_middle_cases (h : axis.isFinite = true) :
    (axis.middle.isFinite = true ∧ ∃ b, denoted? (labelText axis.middle) = some b) ∨
      ∃ negative, labelText axis.middle = signed negative "inf".toList := by
  rcases lt_or_ge |rational axis.lower + rational axis.upper| overflow with hlt | hge
  · have hmiddle := isFinite_middle h hlt
    rcases labelText_cases hmiddle with ⟨-, hnumeral⟩ | ⟨-, hinfinite⟩
    · exact .inl ⟨hmiddle, hnumeral⟩
    · exact .inr hinfinite
  · right
    obtain ⟨hlower, hupper⟩ := Interval.isFinite_iff.mp h
    have hsum := (isRounded_add hlower hupper).eq_infinity hge
    have hstays : ∀ negative, infinity negative / 2 * 100 = infinity negative := by decide +kernel
    exact ⟨_, labelText_of_infinite ((congrArg (· / 2 * 100) hsum).trans (hstays _))⟩

/-- **The `Interval.middle` is between the ends**, on the side of each end that can be doubled. -/
theorem middle_spec (h : axis.isFinite = true) (hle : rational axis.lower ≤ rational axis.upper)
    (hmiddle : axis.middle.isFinite = true) :
    (2 * |rational axis.lower| < overflow → rational axis.lower ≤ rational axis.middle) ∧
      (2 * |rational axis.upper| < overflow → rational axis.middle ≤ rational axis.upper) := by
  obtain ⟨hlower, hupper⟩ := Interval.isFinite_iff.mp h
  have hfinite : (axis.lower + axis.upper).isFinite = true := (isFinite_of_div hmiddle).1
  have hsum := isRounded_add hlower hupper
  have hne : rational 2 ≠ 0 := by rw [rational_two]; norm_num
  have hhalf := isRounded_div hfinite isFinite_two hne
  rw [rational_two] at hhalf
  constructor
  · intro hroom
    obtain ⟨y, hy, hdouble⟩ := exists_double hlower hroom
    have hge := hsum.ge_of_ge hfinite hy (by linarith)
    exact hhalf.ge_of_ge hmiddle hlower (by linarith)
  · intro hroom
    obtain ⟨y, hy, hdouble⟩ := exists_double hupper hroom
    have hle := hsum.le_of_le hfinite hy (by linarith)
    exact hhalf.le_of_le hmiddle hupper (by linarith)

/-- An end whose label is a numeral can be doubled. -/
theorem double_of_denoted {a : Rat} (hx : x.isFinite = true) (ha : denoted? (labelText x) = some a) :
    2 * |rational x| < overflow := by
  have hlt := (denoted?_labelText_isSome_iff hx).mp (Option.isSome_of_eq_some ha)
  linarith [abs_nonneg (rational x)]

/-- A numeral in the middle is in order with the numerals at the ends. -/
theorem labelText_middle_mono {a b c : Rat} (h : axis.isFinite = true)
    (hle : rational axis.lower ≤ rational axis.upper) (hb : denoted? (labelText axis.middle) = some b) :
    (denoted? (labelText axis.lower) = some a → a ≤ b) ∧
      (denoted? (labelText axis.upper) = some c → b ≤ c) := by
  obtain ⟨hlower, hupper⟩ := Interval.isFinite_iff.mp h
  rcases labelText_middle_cases h with ⟨hmiddle, -⟩ | ⟨negative, htext⟩
  · obtain ⟨hge, hle⟩ := middle_spec h hle hmiddle
    exact ⟨fun ha => labelText_mono hlower hmiddle (hge (double_of_denoted hlower ha)) ha hb,
      fun hc => labelText_mono hmiddle hupper (hle (double_of_denoted hupper hc)) hb hc⟩
  · rw [htext, denoted?_infinite] at hb
    contradiction

/-! ## The axis -/

/-- Where both ends can be multiplied by a hundred, all labels are numerals. -/
theorem labels_denoted (h : axis.isFinite = true) (hle : rational axis.lower ≤ rational axis.upper)
    (hlower : 100 * |rational axis.lower| < overflow) (hupper : 100 * |rational axis.upper| < overflow) :
    ∃ a b c, (labelsAlong axis).map denoted? = [some a, some b, some c] := by
  obtain ⟨hfinite, hfinite'⟩ := Interval.isFinite_iff.mp h
  have hnonneg := abs_nonneg (rational axis.lower)
  have hnonneg' := abs_nonneg (rational axis.upper)
  have hmiddle : axis.middle.isFinite = true :=
    isFinite_middle h (lt_of_le_of_lt (abs_add_le _ _) (by linarith))
  obtain ⟨hge, hle⟩ := middle_spec h hle hmiddle
  have hbetween := abs_le_max_abs_abs (hge (by linarith)) (hle (by linarith))
  have hroom : 100 * |rational axis.middle| < overflow := by
    rcases le_max_iff.mp hbetween with hle | hle <;> linarith
  obtain ⟨a, ha⟩ := Option.isSome_iff_exists.mp ((denoted?_labelText_isSome_iff hfinite).mpr hlower)
  obtain ⟨b, hb⟩ := Option.isSome_iff_exists.mp ((denoted?_labelText_isSome_iff hmiddle).mpr hroom)
  obtain ⟨c, hc⟩ := Option.isSome_iff_exists.mp ((denoted?_labelText_isSome_iff hfinite').mpr hupper)
  exact ⟨a, b, c, by rw [labelsAlong_eq, List.map_cons, List.map_cons, List.map_cons, ha, hb, hc]; rfl⟩

/-- **The labels of an axis.** Each of `labelsAlong` an axis denotes a number (`denoted?`) or says that it is
infinite, and those that denote one are in order. All three denote one, and so are in order, if and only if a
hundred times either end is below `overflow`. -/
theorem labels_ordered (axis : Interval) (hfinite : axis.isFinite = true)
    (hle : axis.lower ≤ axis.upper) :
    (∀ label ∈ labelsAlong axis,
      (∃ a, denoted? label = some a) ∨ ∃ negative, label = signed negative "inf".toList) ∧
    ((labelsAlong axis).filterMap denoted?).Pairwise (· ≤ ·) ∧
    ((∃ a b c, (labelsAlong axis).map denoted? = [some a, some b, some c] ∧ a ≤ b ∧ b ≤ c) ↔
      100 * |rational axis.lower| < overflow ∧ 100 * |rational axis.upper| < overflow) := by
  obtain ⟨hlower, hupper⟩ := Interval.isFinite_iff.mp hfinite
  rw [le_iff hlower hupper] at hle
  refine ⟨?_, ?_, ?_, ?_⟩
  · have hend : ∀ {x : Float}, x.isFinite = true →
        (∃ a, denoted? (labelText x) = some a) ∨ ∃ negative, labelText x = signed negative "inf".toList :=
      fun hx => (labelText_cases hx).imp And.right And.right
    intro label hlabel
    rw [labelsAlong_eq] at hlabel
    simp only [List.mem_cons, List.not_mem_nil, or_false] at hlabel
    rcases hlabel with rfl | rfl | rfl
    · exact hend hlower
    · exact (labelText_middle_cases hfinite).imp_left And.right
    · exact hend hupper
  · rw [List.pairwise_filterMap, labelsAlong_eq]
    simp only [List.pairwise_cons, List.mem_cons, List.not_mem_nil, or_false, forall_eq_or_imp, forall_eq,
      List.Pairwise.nil, and_true, IsEmpty.forall_iff, implies_true]
    refine ⟨⟨fun a ha b hb => ?_, fun a ha c hc => ?_⟩, fun b hb c hc => ?_⟩
    · exact (labelText_middle_mono (c := 0) hfinite hle hb).1 ha
    · exact labelText_mono hlower hupper hle ha hc
    · exact (labelText_middle_mono (a := 0) hfinite hle hb).2 hc
  · rintro ⟨a, b, c, hlabels, -⟩
    rw [labelsAlong_eq] at hlabels
    simp only [List.map_cons, List.map_nil, List.cons.injEq] at hlabels
    obtain ⟨ha, -, hc, -⟩ := hlabels
    exact ⟨(denoted?_labelText_isSome_iff hlower).mp (Option.isSome_of_eq_some ha),
      (denoted?_labelText_isSome_iff hupper).mp (Option.isSome_of_eq_some hc)⟩
  · rintro ⟨hroom, hroom'⟩
    obtain ⟨a, b, c, hlabels⟩ := labels_denoted hfinite hle hroom hroom'
    have hparts := hlabels
    rw [labelsAlong_eq] at hparts
    simp only [List.map_cons, List.map_nil, List.cons.injEq] at hparts
    obtain ⟨ha, hb, hc, -⟩ := hparts
    exact ⟨a, b, c, hlabels, (labelText_middle_mono (c := 0) hfinite hle hb).1 ha,
      (labelText_middle_mono (a := 0) hfinite hle hb).2 hc⟩

/-- An axis whose ends become infinite on the way to their labels, and one a tenth as wide. -/
theorem labels_of_wide_axes :
    (labelsAlong ⟨-1e307, 1e307⟩ = ["-inf".toList, "0".toList, "inf".toList] ∧
      ¬∃ a b c, (labelsAlong ⟨-1e307, 1e307⟩).map denoted? = [some a, some b, some c] ∧ a ≤ b ∧ b ≤ c) ∧
    ∃ a b c, (labelsAlong ⟨-1e306, 1e306⟩).map denoted? = [some a, some b, some c] ∧ a ≤ b ∧ b ≤ c := by
  have hbeyond := labels_ordered ⟨-1e307, 1e307⟩ (by decide +kernel) (by decide +kernel)
  have hwithin := labels_ordered ⟨-1e306, 1e306⟩ (by decide +kernel) (by decide +kernel)
  refine ⟨⟨by decide +kernel, fun h => ?_⟩, hwithin.2.2.mpr (by decide +kernel)⟩
  exact absurd (hbeyond.2.2.mp h).1 (by decide +kernel)

end

end Calculator
