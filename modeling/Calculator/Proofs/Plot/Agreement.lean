import Calculator.Plot.Sample
import Calculator.Proofs.Grammar.Substitution

/-!
# `Proofs.Plot.Agreement` — graphs agree with single values

A graph is drawn from one tree, evaluated at every place. The same point can be had without a free
variable: write the place into the tokens and evaluate what they are then. As long as the tokens keep to
the limits with the place written in, the two agree, so that a graph shows nothing that the calculator
would not answer.

## Contents

* `scalarValue`, `pointBySubstitution?` — a point from tokens without the variable
* `Fits`, `Interval.places` — the places at which tokens keep to the limits, and those of a graph
* `scalarValue_substitute`, `pointAt?_eq_pointBySubstitution?` — agreement at one place
* `curve_eq`, `mem_curve_iff`, `filter_curve` — the points of a text
-/

namespace Calculator

/-- The value of tokens without the free variable. -/
def scalarValue (tokens : List Token) : Except ExprError Float :=
  match Expr.ofTokens tokens with
  | .error e => .error e
  | .ok tree => tree.eval none

/-- The point that tokens have where a place is written into them, if they have a value then. -/
def pointBySubstitution? (tokens : List Token) (x : Float) : Option GraphPoint :=
  match scalarValue (substitute x tokens) with
  | .ok y => some ⟨x, y⟩
  | .error _ => none

/-- A place is finite and can be written into the tokens without making them too many. -/
def Fits (tokens : List Token) (x : Float) : Prop :=
  x.isFinite = true ∧ (substitute x tokens).length ≤ tokenLimit

instance (tokens : List Token) (x : Float) : Decidable (Fits tokens x) :=
  inferInstanceAs (Decidable (_ ∧ _))

/-- The places of a graph; there are none where the stretch is not finite. -/
def Interval.places (domain : Interval) (steps : Nat) : List Float :=
  if domain.isFinite then grid domain.ordered steps else []

section

variable {tokens : List Token} {tree : Expr} {text : String} {domain : Interval} {steps : Nat}
  {x y : Float}

/-! ## One place -/

theorem ofTokens_substitute (hnest : DerivesWithin (nestingLimit - 2) tokens tree)
    (hlength : (substitute x tokens).length ≤ tokenLimit) :
    Expr.ofTokens (substitute x tokens) = .ok (tree.substitute x) :=
  DerivesWithin.ofTokens (hnest.substitute x) hlength

theorem scalarValue_substitute (hnest : DerivesWithin (nestingLimit - 2) tokens tree)
    (hfits : Fits tokens x) : scalarValue (substitute x tokens) = tree.eval (some x) := by
  unfold scalarValue
  rw [ofTokens_substitute hnest hfits.2]
  exact Expr.eval_substitute hfits.1 tree

theorem pointAt?_eq_pointBySubstitution? (hnest : DerivesWithin (nestingLimit - 2) tokens tree)
    (hfits : Fits tokens x) : tree.pointAt? x = pointBySubstitution? tokens x := by
  unfold Expr.pointAt? pointBySubstitution?
  rewrite [scalarValue_substitute hnest hfits]
  rfl

theorem Expr.pointAt?_x {p : GraphPoint} (h : tree.pointAt? x = some p) : p.x = x := by
  unfold Expr.pointAt? at h
  split at h
  · injection h with h
    rw [← h]
  · exact absurd h (by simp)

theorem pointBySubstitution?_eq_some {p : GraphPoint} :
    pointBySubstitution? tokens x = some p ↔
      p.x = x ∧ scalarValue (substitute x tokens) = .ok p.y := by
  unfold pointBySubstitution?
  cases hvalue : scalarValue (substitute x tokens) with
  | error e => simp
  | ok y =>
      obtain ⟨px, py⟩ := p
      simp only [Option.some.injEq, GraphPoint.mk.injEq, Except.ok.injEq]
      exact and_congr_left fun _ => eq_comm

/-! ## A whole graph -/

theorem curve_eq (htext : tokenize text = .ok tokens) (hread : Expr.ofTokens tokens = .ok tree) :
    curve text domain steps = (domain.places steps).filterMap tree.pointAt? := by
  have hcompile : compile text = .ok tree := by
    unfold compile
    rw [htext]
    exact hread
  unfold curve Interval.places
  simp only [hcompile]
  by_cases hdomain : domain.isFinite = true
  · rw [if_pos hdomain, if_pos hdomain]
  · rw [if_neg hdomain, if_neg hdomain]
    rfl

/-- A point of a graph at a place that fits is the point of the tokens with the place written in. -/
theorem mem_curve_iff (htext : tokenize text = .ok tokens) (hread : Expr.ofTokens tokens = .ok tree)
    (hnest : DerivesWithin (nestingLimit - 2) tokens tree) (hx : x ∈ domain.places steps)
    (hfits : Fits tokens x) :
    ⟨x, y⟩ ∈ curve text domain steps ↔ scalarValue (substitute x tokens) = .ok y := by
  rw [curve_eq htext hread, List.mem_filterMap]
  constructor
  · rintro ⟨x', -, hpoint⟩
    obtain rfl : x = x' := Expr.pointAt?_x hpoint
    rw [pointAt?_eq_pointBySubstitution? hnest hfits] at hpoint
    exact (pointBySubstitution?_eq_some.mp hpoint).2
  · intro hvalue
    refine ⟨x, hx, ?_⟩
    rw [pointAt?_eq_pointBySubstitution? hnest hfits]
    exact pointBySubstitution?_eq_some.mpr ⟨rfl, hvalue⟩

/-- Where the places fit, the points of a graph are those of the tokens with the places written in,
each as often and in the same order. -/
theorem filter_curve (htext : tokenize text = .ok tokens) (hread : Expr.ofTokens tokens = .ok tree)
    (hnest : DerivesWithin (nestingLimit - 2) tokens tree) :
    (curve text domain steps).filter (fun p => Fits tokens p.x) =
      ((domain.places steps).filter (fun x => Fits tokens x)).filterMap
        (pointBySubstitution? tokens) := by
  rw [curve_eq htext hread, List.filter_filterMap, List.filterMap_filter]
  refine congrArg (fun f => (domain.places steps).filterMap f) (funext fun x => ?_)
  by_cases hfits : Fits tokens x
  · rw [if_pos (decide_eq_true hfits), ← pointAt?_eq_pointBySubstitution? hnest hfits]
    cases hpoint : tree.pointAt? x with
    | none => rfl
    | some p => simp [Option.filter, Expr.pointAt?_x hpoint, hfits]
  · rw [if_neg (by simpa using hfits)]
    cases hpoint : tree.pointAt? x with
    | none => rfl
    | some p => simp [Option.filter, Expr.pointAt?_x hpoint, hfits]

/-- **Sampling agrees with substitution.** Tokens that `Expr.ofTokens` reads as a tree, and that leave two
levels of `nestingLimit` unused, are read again with any finite number in the place of the variable
(`substitute`), if they then are at most `tokenLimit`; and `eval` of that tree without a value is `eval` of
the first tree at the number. So every point of a `curve` at a place that `Fits` has the `scalarValue` of the
expression with the place written in, such a place is left out exactly if it then has none, and none is
repeated or moved. -/
theorem sampling_agrees_with_substitution (tokens : List Token) (tree : Expr)
    (hread : Expr.ofTokens tokens = .ok tree)
    (hnest : DerivesWithin (nestingLimit - 2) tokens tree) :
    (∀ v : Float, v.isFinite = true → (substitute v tokens).length ≤ tokenLimit →
      ∃ tree', Expr.ofTokens (substitute v tokens) = .ok tree' ∧
        tree'.eval none = tree.eval (some v)) ∧
    (∀ (text : String) (domain : Interval) (steps : Nat), tokenize text = .ok tokens →
      (curve text domain steps).filter (fun p => Fits tokens p.x) =
          ((domain.places steps).filter (fun x => Fits tokens x)).filterMap
            (pointBySubstitution? tokens) ∧
        (∀ p ∈ curve text domain steps, Fits tokens p.x →
          scalarValue (substitute p.x tokens) = .ok p.y) ∧
        (∀ x ∈ domain.places steps, Fits tokens x →
          ((∀ y, ⟨x, y⟩ ∉ curve text domain steps) ↔
            ∃ e, scalarValue (substitute x tokens) = .error e))) := by
  refine ⟨fun v hv hlength => ?_, fun text domain steps htext => ⟨?_, ?_, ?_⟩⟩
  · exact ⟨tree.substitute v, ofTokens_substitute hnest hlength, Expr.eval_substitute hv tree⟩
  · exact filter_curve htext hread hnest
  · intro p hp hfits
    rw [curve_eq htext hread, List.mem_filterMap] at hp
    obtain ⟨x, -, hpoint⟩ := hp
    obtain rfl := Expr.pointAt?_x hpoint
    rw [pointAt?_eq_pointBySubstitution? hnest hfits] at hpoint
    exact (pointBySubstitution?_eq_some.mp hpoint).2
  · intro x hx hfits
    simp only [mem_curve_iff htext hread hnest hx hfits]
    cases scalarValue (substitute x tokens) with
    | ok y => simp
    | error e => simp

/-- The tokens of `2x` at `-3`, and its graph from `-1` to `1` in two steps. -/
theorem sampling_agrees_with_substitution_twice :
    (∃ tree', Expr.ofTokens [.number 2, .opening, .operator '-', .number 3, .closing] = .ok tree' ∧
      tree'.eval none = .ok (-6)) ∧
    ∀ p ∈ curve "2x" ⟨-1, 1⟩ 2, scalarValue (substitute p.x [.number 2, .variable]) = .ok p.y := by
  have hread : Expr.ofTokens [.number 2, .variable] = .ok (.binary '*' (.number 2) .variable) := by
    decide +kernel
  have hnest : DerivesWithin (nestingLimit - 2) [.number 2, .variable]
      (.binary '*' (.number 2) .variable) := by
    have hleft : Derives .product 0 [.number 2] (.number 2) :=
      .ofSigned (.ofPower (.ofPrimary (.number 2)))
    have hright : Derives .signed 0 [.variable] .variable := .ofPower (.ofPrimary .variable)
    exact ⟨0, by decide, .ofProduct (.juxtaposition rfl hleft hright)⟩
  obtain ⟨hvalue, hcurve⟩ := sampling_agrees_with_substitution _ _ hread hnest
  constructor
  · have hafter : substitute (-3) [.number 2, .variable] =
        [.number 2, .opening, .operator '-', .number 3, .closing] := by decide +kernel
    obtain ⟨tree', hread', heval⟩ := hvalue (-3) (by decide +kernel) (by decide +kernel)
    rw [hafter] at hread'
    exact ⟨tree', hread', heval.trans (by decide +kernel)⟩
  · intro p hp
    have hfits : ∀ p ∈ curve "2x" ⟨-1, 1⟩ 2, Fits [.number 2, .variable] p.x := by decide +kernel
    exact (hcurve "2x" ⟨-1, 1⟩ 2 (by decide +kernel)).2.1 p hp (hfits p hp)

end

end Calculator
