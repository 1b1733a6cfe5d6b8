import Calculator.Proofs.Expression.Strictness
import Calculator.Proofs.Grammar.Atoms
import Calculator.Proofs.Json.Record
import Calculator.Proofs.Session.Moment
import Calculator.Proofs.Session.Run
import Calculator.Session.Document

/-!
# `Proofs.Session.Reload` — a session is taken up where it was left

Texts, counts and moments are read back as they were written, whatever they are. A number is read back only
if it is finite, so it has to be known that a session holds no others: the ends of what it plots over are
anybody's choice, but no point of a graph can be infinite. Its height is a value, and values are finite; its
place is finite because only an expression with the free variable in it is ever graphed, and the variable has
no value at any other place.

Not every finite number is read back to the last bit, for the reader rounds more than once. The numbers of
the session at hand are therefore named in a hypothesis of their own.

## Contents

* `Session.numbers`, `Session.Reachable` — what a document has to hold, and of which sessions
* `Session.Storable`, `Session.Reachable.storable` — the invariant
* `Session.ofDocument?_document_eq_some_iff` — when reading undoes writing
* `Session.reloads` — the two together
-/

namespace Calculator

/-- The numbers of a session: the ends of what it plots over, and the coordinates of its points. -/
def Session.numbers (session : Session) : List Float :=
  session.domain.lower :: session.domain.upper :: session.points.flatMap fun point => [point.x, point.y]

/-- An evaluation happens at a moment of the calendar. -/
def Session.Action.Timely : Session.Action → Prop
  | .evaluate stamp => stamp.timestamp.Valid
  | _ => True

instance : DecidablePred Session.Action.Timely
  | .evaluate stamp => inferInstanceAs (Decidable stamp.timestamp.Valid)
  | .append _ | .eraseLast | .clear | .select _ => .isTrue trivial

/-- **The sessions there can be**: `empty` ones, and what settings and actions make of others. Limits and
counts fit `countBits`. -/
inductive Session.Reachable : Session → Prop
  | empty : Reachable .empty
  | withCapacity {session : Session} (h : Reachable session) {limit : Nat} (fits : limit < 2 ^ countBits) :
      Reachable (session.withCapacity limit)
  | plottingOver {session : Session} (h : Reachable session) (domain : Interval) {steps : Nat}
      (fits : steps < 2 ^ countBits) : Reachable (session.plottingOver domain steps)
  | perform {session : Session} (h : Reachable session) {action : Session.Action}
      (timely : action.Timely) : Reachable (session.perform action)

/-- **What a document can hold of a session**: counts within `countBits`, `Valid` moments and finite
points. -/
structure Session.Storable (session : Session) : Prop where
  capacity : session.capacity < 2 ^ countBits
  steps : session.steps < 2 ^ countBits
  moments : ∀ entry ∈ session.history, entry.timestamp.Valid
  points : ∀ point ∈ session.points, point.x.isFinite = true ∧ point.y.isFinite = true

section

variable {expression : String} {point : GraphPoint} {tree : Expr} {x : Float}

/-! ## The points of a graph -/

/-- An expression with the variable in it has a value at finite places only, and the value is finite. -/
theorem Expr.pointAt?_finite (hmentions : tree.mentionsVariable = true) (h : tree.pointAt? x = some point) :
    point.x.isFinite = true ∧ point.y.isFinite = true := by
  unfold Expr.pointAt? at h
  rcases tree.eval_cases (some x) with ⟨value, heval, hfinite, hparts⟩ | ⟨e, heval, -⟩
  · rw [heval] at h
    obtain rfl : ⟨x, value⟩ = point := Option.some.inj h
    have hvariable := hparts .variable (variable_mem_subexpressions_iff.mpr hmentions)
    obtain ⟨place, hplace, hplaceFinite⟩ := hasValue_variable_iff.mp hvariable
    obtain rfl : x = place := Option.some.inj hplace
    exact ⟨hplaceFinite, hfinite⟩
  · rw [heval] at h
    exact absurd h (by simp)

/-- **No point of a `curve` is infinite**, whatever it is sampled over. -/
theorem curve_finite (hmentions : mentionsVariable expression = true) (domain : Interval) (steps : Nat) :
    ∀ point ∈ curve expression domain steps, point.x.isFinite = true ∧ point.y.isFinite = true := by
  intro point hpoint
  unfold curve at hpoint
  split at hpoint
  · exact absurd hpoint List.not_mem_nil
  · rename_i tree hcompile
    split_ifs at hpoint
    · obtain ⟨x, -, hx⟩ := List.mem_filterMap.mp hpoint
      exact Expr.pointAt?_finite (mentionsVariable_of_compile hcompile ▸ hmentions) hx
    · exact absurd hpoint List.not_mem_nil

end

namespace Session

section

variable {session : Session} {stamp : Stamp}

/-! ## The invariant -/

theorem storable_empty : empty.Storable where
  capacity := by decide
  steps := by decide
  moments := fun _ hentry => absurd hentry List.not_mem_nil
  points := fun _ hpoint => absurd hpoint List.not_mem_nil

theorem Storable.evaluate (h : session.Storable) (hstamp : stamp.timestamp.Valid) :
    (session.evaluate stamp).Storable := by
  cases session.evaluation stamp with
  | nothing _ same =>
      rw [same]
      exact h
  | graphed _ mentions eq =>
      rw [eq]
      exact { h with points := curve_finite mentions session.domain session.steps }
  | recorded text _ _ _ eq =>
      rw [eq]
      refine { h with moments := fun entry hentry => ?_ }
      rcases List.mem_cons.mp (List.mem_of_mem_take hentry) with rfl | hold
      · exact hstamp
      · exact h.moments entry hold
  | failed _ _ _ eq =>
      rw [eq]
      exact { h with }

theorem Storable.select (h : session.Storable) (id : String) : (session.select id).Storable := by
  cases session.selection id with
  | nothing same =>
      rw [same]
      exact h
  | restored entry _ _ eq =>
      rw [eq]
      exact { h with }

theorem Storable.perform (h : session.Storable) {action : Action} (htimely : action.Timely) :
    (session.perform action).Storable := by
  cases action with
  | append text => exact { h with }
  | eraseLast =>
      exact ⟨by simpa [Session.perform] using h.capacity, by simpa [Session.perform] using h.steps,
        by simpa [Session.perform] using h.moments, by simpa only [Session.perform, eraseLast] using h.points⟩
  | clear => exact { h with points := fun _ hpoint => absurd hpoint List.not_mem_nil }
  | evaluate stamp => exact h.evaluate htimely
  | select id => exact h.select id

/-- **A document can hold every session there can be**: what is `Reachable` is `Storable`. -/
theorem Reachable.storable (h : session.Reachable) : session.Storable := by
  induction h with
  | empty => exact storable_empty
  | withCapacity _ fits ih =>
      exact { ih with
        capacity := fits
        moments := fun entry hentry => ih.moments entry (List.mem_of_mem_take hentry) }
  | plottingOver _ domain fits ih => exact { ih with steps := fits }
  | perform _ timely ih => exact ih.perform timely

theorem Reachable.run (h : session.Reachable) {actions : List Action}
    (htimely : ∀ action ∈ actions, action.Timely) : (session.run actions).Reachable := by
  induction actions generalizing session with
  | nil => exact h
  | cons action actions ih =>
      rw [run_cons]
      exact ih (h.perform (htimely action List.mem_cons_self)) fun other hother =>
        htimely other (List.mem_cons_of_mem action hother)

end

end Session

section

variable {session : Session} {entry : Calculation} {point : GraphPoint} {interval : Interval}
  {timestamp : Timestamp}

/-! ## Writing -/

theorem Calculation.printable_toJson (entry : Calculation) : entry.toJson.Printable :=
  Json.printable_ofFields (by simp [Json.printable_ofText])

theorem GraphPoint.printable_toJson (point : GraphPoint) : point.toJson.Printable :=
  Json.printable_ofFields (by simp [Json.printable_ofFloat])

theorem Interval.printable_toJson (interval : Interval) : interval.toJson.Printable :=
  .array (by simp [Json.printable_ofFloat])

/-! ## Reading undoes writing -/

theorem Timestamp.ofJson?_text (h : timestamp.Valid) :
    Timestamp.ofJson? (.ofText (String.ofList timestamp.text)) = some timestamp := by
  unfold Timestamp.ofJson?
  rw [Json.text?_ofText, Option.bind_some, String.toList_ofList]
  exact Timestamp.read?_text h

theorem Calculation.ofJson?_toJson (h : entry.timestamp.Valid) :
    Calculation.ofJson? entry.toJson = some entry := by
  unfold Calculation.ofJson? Calculation.toJson
  rw [Json.fields?_ofFields]
  case hnames => rfl
  case h => decide
  simp only [List.map_cons, List.map_nil, Option.bind_eq_bind, Option.bind_some, Json.required,
    Json.text?_ofText, Timestamp.ofJson?_text h]
  rfl

/-- A point is read back if and only if its coordinates are. -/
theorem GraphPoint.ofJson?_toJson_eq_some_iff :
    GraphPoint.ofJson? point.toJson = some point ↔
      (Json.ofFloat point.x).float? = some point.x ∧ (Json.ofFloat point.y).float? = some point.y := by
  have hread : GraphPoint.ofJson? point.toJson = (Json.ofFloat point.x).float?.bind fun x =>
      (Json.ofFloat point.y).float?.bind fun y => some ⟨x, y⟩ := by
    unfold GraphPoint.ofJson? GraphPoint.toJson
    rw [Json.fields?_ofFields]
    case hnames => rfl
    case h => decide
    rfl
  rw [hread]
  cases point
  simp [Option.bind_eq_some_iff]

theorem Interval.ofJson?_toJson (interval : Interval) :
    Interval.ofJson? interval.toJson = (Json.ofFloat interval.lower).float?.bind fun lower =>
      (Json.ofFloat interval.upper).float?.bind fun upper => some ⟨lower, upper⟩ := rfl

/-- A stretch is read back if and only if its ends are. -/
theorem Interval.ofJson?_toJson_eq_some_iff :
    Interval.ofJson? interval.toJson = some interval ↔
      (Json.ofFloat interval.lower).float? = some interval.lower ∧
        (Json.ofFloat interval.upper).float? = some interval.upper := by
  rw [Interval.ofJson?_toJson]
  cases interval
  simp [Option.bind_eq_some_iff]

/-- A stretch without an end is not read back. -/
theorem Interval.ofJson?_toJson_of_infinite (h : interval.isFinite = false) :
    Interval.ofJson? interval.toJson = none := by
  rw [Interval.ofJson?_toJson]
  rcases Bool.and_eq_false_iff.mp h with hlower | hupper
  · rw [Json.float?_ofFloat_of_infinite hlower, Option.bind_none]
  · rw [Json.float?_ofFloat_of_infinite hupper]
    cases (Json.ofFloat interval.lower).float? with
    | none => rfl
    | some lower => rfl

theorem Mode.lookup_name (mode : Mode) : Mode.names.lookup mode.name = some mode := by
  cases mode with
  | idle => rfl
  | editing => rfl
  | scalar => rfl
  | graph => rfl

namespace Session

/-- All fields but the numbers are found as they were, so the numbers decide. -/
theorem ofJson?_toJson (h : session.Storable) :
    ofJson? session.toJson =
      (Json.list? GraphPoint.ofJson? (.array (session.points.map GraphPoint.toJson))).bind fun points =>
        (Interval.ofJson? session.domain.toJson).bind fun domain =>
          some { session with points := points, domain := domain } := by
  have hhistory := Json.list?_map_eq_some_iff.mpr fun entry hentry =>
    Calculation.ofJson?_toJson (h.moments entry hentry)
  unfold ofJson? toJson
  rw [Json.fields?_ofFields]
  case hnames => rfl
  case h => decide
  simp only [List.map_cons, List.map_nil, Option.bind_eq_bind, Option.bind_some, Json.required,
    Json.text?_ofText, hhistory, Json.choice?_ofText, Mode.lookup_name, Json.natural?_ofNat h.capacity,
    Json.natural?_ofNat h.steps]
  rfl

theorem printable_toJson (session : Session) : session.toJson.Printable :=
  Json.printable_ofFields <| by
    simp [Json.printable_ofText, Json.printable_ofNat, Interval.printable_toJson,
      Json.printable_map Calculation.printable_toJson, Json.printable_map GraphPoint.printable_toJson]

theorem forall_mem_numbers {P : Float → Prop} :
    (∀ x ∈ session.numbers, P x) ↔
      (P session.domain.lower ∧ P session.domain.upper) ∧ ∀ point ∈ session.points, P point.x ∧ P point.y := by
  have hpoint : ∀ point : GraphPoint, (∀ x ∈ [point.x, point.y], P x) ↔ P point.x ∧ P point.y := fun point => by
    simp
  unfold numbers
  rw [List.forall_mem_cons, List.forall_mem_cons, List.forall_mem_flatMap, and_assoc]
  simp only [hpoint]

/-- No number of a session is infinite if what it plots over has two ends. -/
theorem Storable.isFinite_of_mem_numbers (h : session.Storable) (hdomain : session.domain.isFinite = true) :
    ∀ x ∈ session.numbers, x.isFinite = true :=
  forall_mem_numbers.mpr ⟨Bool.and_eq_true_iff.mp hdomain, h.points⟩

/-- **A document is read back** by `ofDocument?` to the session it was written from if and only if every one
of the `numbers` in it is. -/
theorem ofDocument?_document_eq_some_iff (h : session.Storable) :
    ofDocument? session.document = some session ↔
      ∀ x ∈ session.numbers, (Json.ofFloat x).float? = some x := by
  have hpoints : (∀ point ∈ session.points, (Json.ofFloat point.x).float? = some point.x ∧
      (Json.ofFloat point.y).float? = some point.y) ↔
      Json.list? GraphPoint.ofJson? (.array (session.points.map GraphPoint.toJson)) = some session.points := by
    rw [Json.list?_map_eq_some_iff]
    exact forall₂_congr fun _ _ => GraphPoint.ofJson?_toJson_eq_some_iff.symm
  rw [forall_mem_numbers, hpoints, ← Interval.ofJson?_toJson_eq_some_iff]
  unfold ofDocument? document
  rw [session.printable_toJson.parse?, Option.bind_some, ofJson?_toJson h]
  constructor
  · intro hreload
    obtain ⟨points, hpoints, hreload⟩ := Option.bind_eq_some_iff.mp hreload
    obtain ⟨domain, hdomain, hreload⟩ := Option.bind_eq_some_iff.mp hreload
    have hsame := Option.some.inj hreload
    exact ⟨hdomain.trans (congrArg some (congrArg Session.domain hsame)),
      hpoints.trans (congrArg some (congrArg Session.points hsame))⟩
  · rintro ⟨hdomain, hpoints⟩
    rw [hpoints, hdomain]
    rfl

/-- Rounding more than once, the reader misses this one by a bit. -/
example : (Json.ofFloat (1 / 11)).float? ≠ some (1 / 11) := by decide +kernel

/-- A document cannot be read back if what is plotted over has no end. -/
theorem ofDocument?_document_of_infinite (h : session.Storable) (hdomain : session.domain.isFinite = false) :
    ofDocument? session.document = none := by
  unfold ofDocument? document
  rw [session.printable_toJson.parse?, Option.bind_some, ofJson?_toJson h,
    Interval.ofJson?_toJson_of_infinite hdomain]
  cases Json.list? GraphPoint.ofJson? (.array (session.points.map GraphPoint.toJson)) with
  | none => rfl
  | some points => rfl

/-- **A session is taken up where it was left.** If the `domain` of a session that is `Reachable` is finite,
`ofDocument?` reads its `document` back to the same session, which goes on as that one would, given that its
finite `numbers` are read back. If it is not, `ofDocument?` refuses the document, whatever the numbers are. -/
theorem reloads (session : Session) (h : session.Reachable) :
    (session.domain.isFinite = true →
      (∀ x ∈ session.numbers, x.isFinite = true → (Json.ofFloat x).float? = some x) →
      ∃ reloaded, ofDocument? session.document = some reloaded ∧ reloaded = session ∧
        ∀ actions, reloaded.run actions = session.run actions) ∧
    (session.domain.isFinite = false → ofDocument? session.document = none) := by
  have hstorable := h.storable
  refine ⟨fun hdomain hnumbers => ?_, ofDocument?_document_of_infinite hstorable⟩
  have hfinite := hstorable.isFinite_of_mem_numbers hdomain
  have hreload := (ofDocument?_document_eq_some_iff hstorable).mpr fun x hx =>
    hnumbers x hx (hfinite x hx)
  exact ⟨session, hreload, rfl, fun _ => rfl⟩

/-- A calculation, then a graph, in a session with settings of its own. -/
def afterGraph : Session :=
  ((empty.withCapacity 3).plottingOver ⟨-1, 1⟩ 4).run
    [.append "2*(3-1)", .evaluate ⟨"8f", ⟨⟨2024, 2, 29⟩, ⟨23, 59, 60, 5000⟩⟩⟩, .clear, .append "1/(4x)",
      .evaluate ⟨"90", ⟨⟨2024, 3, 1⟩, ⟨0, 0, 1, 0⟩⟩⟩]

theorem reloads_afterGraph :
    afterGraph.Reachable ∧ afterGraph.domain.isFinite = true ∧
    afterGraph.history.length = 1 ∧ afterGraph.points.length = 4 ∧
    (∀ x ∈ afterGraph.numbers, x.isFinite = true → (Json.ofFloat x).float? = some x) ∧
    (∃ reloaded, ofDocument? afterGraph.document = some reloaded ∧ reloaded = afterGraph ∧
      ∀ actions, reloaded.run actions = afterGraph.run actions) ∧
    (afterGraph.domain.isFinite = false → ofDocument? afterGraph.document = none) := by
  have hreachable : afterGraph.Reachable :=
    ((Reachable.empty.withCapacity (by decide)).plottingOver _ (by decide)).run (by decide)
  have hdomain : afterGraph.domain.isFinite = true := by decide +kernel
  have hnumbers : ∀ x ∈ afterGraph.numbers, x.isFinite = true → (Json.ofFloat x).float? = some x := by
    decide +kernel
  exact ⟨hreachable, hdomain, by decide +kernel, by decide +kernel, hnumbers,
    (reloads afterGraph hreachable).1 hdomain hnumbers, (reloads afterGraph hreachable).2⟩

end Session

end

end Calculator
