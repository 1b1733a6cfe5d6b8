import Calculator.Proofs.Analysis.Fence
import Calculator.Proofs.Number.Reading
import Calculator.Proofs.Plot.Coverage
import Calculator.Settings

/-!
# `Proofs.Settings.Configured` — what comes of the variables

Each setting is as its variable says, and as it is without one if the variable says nothing that can be
read. The ends of the plot are read one by one and then looked at together, so that there is always
something between them. It need not be anything that can be plotted. An end may be infinite, and it is let
pass if it lies on its own side.

## Contents

* `Count` — the settings that are counts, their variables and what they are without them
* `SaysCount`, `saysCount_iff` — texts that set a count
* `valueOr_eq_infinity_iff` — texts that set an infinite end
* `curve_variable_ne_nil_iff` — stretches with a point
* `ofLookup_configured` — all settings that are numbers
-/

namespace Calculator

open Binary64

/-! ## Counts -/

/-- A setting that is a count. -/
inductive Count where
  | steps
  | capacity
  | secondsToWait
deriving Repr, DecidableEq

namespace Count

/-- The variable that it is read from. -/
def name : Count → String
  | steps => "SCI_CALC_STEPS"
  | capacity => "SCI_CALC_HISTORY_LIMIT"
  | secondsToWait => "SCI_CALC_AI_TIMEOUT_SECS"

/-- What it is unless the variable says otherwise. -/
def standard : Count → Nat
  | steps => standardSteps
  | capacity => Session.standardCapacity
  | secondsToWait => ServiceSettings.standardSecondsToWait

/-- What it is. -/
def of (settings : Settings) : Count → Nat
  | steps => settings.steps
  | capacity => settings.capacity
  | secondsToWait => settings.service.secondsToWait

theorem of_ofLookup (lookup : String → Option String) (count : Count) :
    count.of (Settings.ofLookup lookup) =
      Settings.valueOr (readNatural? Settings.countBits) count.standard (lookup count.name) := by
  cases count <;> rfl

end Count

/-- A text that says a count: the digits of a number of at most sixty-four bits, perhaps with a plus sign
before them, and with any blanks around. -/
def SaysCount (text : String) (n : Nat) : Prop :=
  n < 2 ^ 64 ∧ ∃ before plus digits after, text.toList = before ++ (plus ++ digits) ++ after ∧
    (∀ c ∈ before, Text.isBlank c = true) ∧ (∀ c ∈ after, Text.isBlank c = true) ∧
    (plus = [] ∨ plus = ['+']) ∧ digits ≠ [] ∧ (∀ c ∈ digits, c.isDigit = true) ∧
    Nat.ofDigitChars 10 digits 0 = n

section

variable {text : String} {word plus digits : List Char} {value : Option String} {standard : Float}
  {negative : Bool} {n steps : Nat} {domain : Interval}

/-- A word without blanks has none around it. -/
theorem Text.trim_of_solid (h : ∀ c ∈ word, isBlank c = false) (hne : word ≠ []) : trim word = word := by
  have hstart : trimStart word = word := by simpa using trimStart_of_solid h hne []
  rw [trim, hstart]
  exact trimEnd_of_solid h hne []

theorem solid_count (hplus : plus = [] ∨ plus = ['+']) (hdigits : ∀ c ∈ digits, c.isDigit = true) :
    ∀ c ∈ plus ++ digits, Text.isBlank c = false := by
  intro c hc
  rcases List.mem_append.mp hc with hsign | hdigit
  · rcases hplus with rfl | rfl
    · contradiction
    · rw [List.mem_singleton.mp hsign]
      decide
  · exact Text.isBlank_eq_false_of_isDigit (hdigits c hdigit)

/-- **What `SaysCount`** is what `readNatural?` reads when the blanks around it are taken off. -/
theorem saysCount_iff :
    SaysCount text n ↔ readNatural? Settings.countBits (Text.trim text.toList) = some n := by
  rw [readNatural?_eq_some_iff]
  constructor
  · rintro ⟨hlt, before, plus, digits, after, htext, hbefore, hafter, hplus, hne, hdigits, hn⟩
    refine ⟨hlt, plus, digits, ?_, hplus, hne, hdigits, hn⟩
    rw [htext, Text.trim_append_blanks hafter, Text.trim_blanks_append hbefore]
    exact Text.trim_of_solid (solid_count hplus hdigits) (by simp [hne])
  · rintro ⟨hlt, plus, digits, htrim, hcount⟩
    obtain ⟨before, after, htext, hbefore, hafter⟩ := Text.exists_trim text.toList
    rw [htrim] at htext
    exact ⟨hlt, before, plus, digits, after, htext, hbefore, hafter, hcount⟩

/-! ## Ends of the plot -/

/-- An end is infinite if and only if its variable says so. -/
theorem valueOr_eq_infinity_iff (hstandard : standard.isFinite = true) :
    Settings.valueOr readNumeral? standard value = infinity negative ↔
      ∃ text, value = some text ∧ SaysInfinite negative (Text.trim text.toList) := by
  have hne : standard ≠ infinity negative := by
    rintro rfl
    rw [isFinite_infinity] at hstandard
    contradiction
  simp only [← readNumeral?_eq_infinity_iff, ← Option.bind_eq_some_iff]
  unfold Settings.valueOr
  cases value.bind fun text => readNumeral? (Text.trim text.toList) with
  | none => exact iff_of_false hne (by simp)
  | some x => rw [Option.getD_some, Option.some.injEq]

/-- **There is a point to plot** on the `curve` of `x` if and only if the ends are finite. -/
theorem curve_variable_ne_nil_iff (hsteps : steps ≠ 0) :
    curve "x" domain steps ≠ [] ↔ domain.isFinite = true := by
  have hcompile : compile "x" = .ok .variable := by decide +kernel
  constructor
  · intro hne
    by_contra hfinite
    refine hne ?_
    unfold curve
    rw [hcompile]
    exact if_neg hfinite
  · intro hfinite
    -- the last place is the upper end
    have hupper := (Interval.isFinite_iff.mp (Interval.ordered_spec hfinite).1).2
    have heval : Expr.eval (some domain.ordered.upper) .variable = .ok domain.ordered.upper := by
      rw [Expr.eval]
      exact if_pos hupper
    have hlast : gridPoint domain.ordered steps steps ∈
        (List.range (steps + 1)).map (gridPoint domain.ordered steps) :=
      List.mem_map_of_mem (List.mem_range.mpr (Nat.lt_succ_self steps))
    rw [gridPoint_last] at hlast
    rw [curve_of_compile hcompile hfinite hsteps]
    exact List.ne_nil_of_mem (List.mem_filterMap.mpr ⟨_, hlast, pointAt?_of_eval heval⟩)

/-! ## All variables -/

theorem isFinite_standard : Interval.standard.isFinite = true := by decide +kernel

theorem domainOr_lower_lt_upper (lower upper : Float) :
    (Settings.domainOr lower upper).lower < (Settings.domainOr lower upper).upper := by
  unfold Settings.domainOr
  split
  · assumption
  · decide +kernel

/-- What lies between two ends is not finite if and only if one of them is infinite on its own side. -/
theorem isFinite_domainOr_iff (lower upper : Float) :
    (Settings.domainOr lower upper).isFinite = false ↔
      lower < upper ∧ (lower = infinity true ∨ upper = infinity false) := by
  unfold Settings.domainOr
  by_cases hlt : lower < upper
  · rw [if_pos hlt, and_iff_right hlt, ← Bool.not_eq_true, Interval.isFinite_iff]
    obtain ⟨hlower, hupper⟩ := finite_or_of_lt hlt
    constructor
    · intro hnot
      rcases hlower with hfinite | hinfinite
      · exact .inr (hupper.resolve_left fun hfinite' => hnot ⟨hfinite, hfinite'⟩)
      · exact .inl hinfinite
    · rintro (rfl | rfl) ⟨hfinite, hfinite'⟩
      · rw [isFinite_infinity] at hfinite
        contradiction
      · rw [isFinite_infinity] at hfinite'
        contradiction
  · rw [if_neg hlt, isFinite_standard]
    exact iff_of_false (by simp) fun h => hlt h.1

/-- **The settings that are numbers.** Whatever `lookup` finds, the ends of the `domain` are in order, and
they are the two that the variables say if these are in order. They are finite, so that the `curve` of `x` has
a point at its end, unless the ends as they are read, with the standard one for one that cannot be read, are
in order and a variable `SaysInfinite`: of the lower end downwards, or of the upper end upwards. Each `Count`
is what its variable says (`SaysCount`), and the standard one if it says none. -/
theorem ofLookup_configured (lookup : String → Option String) :
    let settings := Settings.ofLookup lookup
    let lower := Settings.valueOr readNumeral? Interval.standard.lower (lookup "SCI_CALC_DOMAIN_MIN")
    let upper := Settings.valueOr readNumeral? Interval.standard.upper (lookup "SCI_CALC_DOMAIN_MAX")
    settings.domain.lower < settings.domain.upper ∧
    (lower < upper → settings.domain = ⟨lower, upper⟩) ∧
    (settings.domain.isFinite = false ↔ lower < upper ∧
      ((∃ text, lookup "SCI_CALC_DOMAIN_MIN" = some text ∧ SaysInfinite true (Text.trim text.toList)) ∨
        ∃ text, lookup "SCI_CALC_DOMAIN_MAX" = some text ∧ SaysInfinite false (Text.trim text.toList))) ∧
    (∀ steps, steps ≠ 0 → (curve "x" settings.domain steps ≠ [] ↔ settings.domain.isFinite = true)) ∧
    ∀ count : Count,
      (∀ text n, lookup count.name = some text → SaysCount text n → count.of settings = n) ∧
      ((∀ text n, lookup count.name = some text → ¬SaysCount text n) →
        count.of settings = count.standard) := by
  intro settings lower upper
  obtain ⟨hlower, hupper⟩ := Interval.isFinite_iff.mp isFinite_standard
  refine ⟨domainOr_lower_lt_upper lower upper, fun hlt => if_pos hlt, ?_,
    fun steps => curve_variable_ne_nil_iff, fun count => ⟨fun text n htext hsays => ?_, fun hnone => ?_⟩⟩
  · rw [← valueOr_eq_infinity_iff hlower, ← valueOr_eq_infinity_iff hupper]
    exact isFinite_domainOr_iff lower upper
  · rw [count.of_ofLookup lookup, htext]
    unfold Settings.valueOr
    rw [Option.bind_some, saysCount_iff.mp hsays, Option.getD_some]
  · rw [count.of_ofLookup lookup]
    unfold Settings.valueOr
    cases htext : lookup count.name with
    | none => rfl
    | some text =>
        rw [Option.bind_some]
        cases hread : readNatural? Settings.countBits (Text.trim text.toList) with
        | none => rfl
        | some n => exact absurd (saysCount_iff.mpr hread) (hnone text n htext)

/-- An end that is infinite because of its size, a count with a sign and blanks, and one that is none. -/
theorem ofLookup_configured_infinite :
    let table := [("SCI_CALC_DOMAIN_MIN", "-5"), ("SCI_CALC_DOMAIN_MAX", " 1e309"),
      ("SCI_CALC_STEPS", "+007 "), ("SCI_CALC_HISTORY_LIMIT", "-3")]
    let settings := Settings.ofLookup (table.lookup ·)
    settings.domain = ⟨-5, infinity false⟩ ∧ settings.domain.isFinite = false ∧
      curve "x" settings.domain 7 = [] ∧ settings.steps = 7 ∧
      settings.capacity = Session.standardCapacity := by
  intro table settings
  obtain ⟨-, hdomain, hfinite, hcurve, hcounts⟩ := ofLookup_configured (table.lookup ·)
  have hlower : Settings.valueOr readNumeral? Interval.standard.lower
      (table.lookup "SCI_CALC_DOMAIN_MIN") = -5 := by decide +kernel
  have hupper : Settings.valueOr readNumeral? Interval.standard.upper
      (table.lookup "SCI_CALC_DOMAIN_MAX") = infinity false := by decide +kernel
  have hlt : (-5 : Float) < infinity false := by decide +kernel
  rw [hlower, hupper] at hdomain hfinite
  have hinfinite := hfinite.mpr ⟨hlt, .inr ⟨" 1e309", by decide +kernel,
    readNumeral?_eq_infinity_iff.mp (by decide +kernel)⟩⟩
  refine ⟨hdomain hlt, hinfinite, ?_, ?_, ?_⟩
  · by_contra hne
    rw [(hcurve 7 (by decide)).mp hne] at hinfinite
    contradiction
  · exact (hcounts .steps).1 "+007 " 7 (by decide +kernel) (saysCount_iff.mpr (by decide +kernel))
  · refine (hcounts .capacity).2 fun text n htext hsays => ?_
    have hsame : table.lookup "SCI_CALC_HISTORY_LIMIT" = some "-3" := by decide +kernel
    obtain rfl := Option.some.inj (htext.symm.trans hsame)
    have hnone : readNatural? Settings.countBits (Text.trim "-3".toList) = none := by decide +kernel
    rw [saysCount_iff.mp hsays] at hnone
    contradiction

end

end Calculator
