import Calculator.Proofs.Session.Run

/-!
# `Proofs.Session.Coherence` — the display of a session never lies

Mode, expression, result, points and history are written by different actions, and none of them checks
the others. They agree all the same: what the mode announces is what the expression gives. A recall
copies an expression and a result out of the history and calculates nothing, so the entries of the
history have to be known to be true before anything can be said about the mode.

## Contents

* `Calculation.Genuine` — an entry that holds what it claims
* `Session.Coherent` — the invariant
* `Session.Coherent.perform`, `Session.Coherent.run` — every action keeps it
* `Session.run_starting_coherent` — what holds after any actions
-/

namespace Calculator

/-- An entry of a history holds what it claims: its expression is one without the free variable, and its
value is the result. -/
structure Calculation.Genuine (entry : Calculation) : Prop where
  typed : entry.expression ≠ ""
  scalar : mentionsVariable entry.expression = false
  value : evaluate entry.expression = .number entry.result

namespace Session

/-- **Coherence.** The mode is `idle` exactly without an expression; what `scalar` and `graph` show belongs to
the expression; every entry of the history is `Genuine`, and there are not more than the `capacity`. -/
structure Coherent (session : Session) : Prop where
  idle_iff : session.mode = .idle ↔ session.expression = ""
  scalar : session.mode = .scalar →
    mentionsVariable session.expression = false ∧
      session.result = (Calculator.evaluate session.expression).display
  graph : session.mode = .graph →
    mentionsVariable session.expression = true ∧ session.result = graphedText ∧
      session.points = curve session.expression session.domain session.steps
  genuine : ∀ entry ∈ session.history, entry.Genuine
  bounded : session.history.length ≤ session.capacity

section

variable {session : Session}

theorem starting_coherent (limit : Nat) (domain : Interval) (steps : Nat) :
    (starting limit domain steps).Coherent where
  idle_iff := ⟨fun _ => rfl, fun _ => rfl⟩
  scalar := fun h => absurd h (by simp [starting, empty, withCapacity, plottingOver])
  graph := fun h => absurd h (by simp [starting, empty, withCapacity, plottingOver])
  genuine := by
    intro entry h
    exact absurd h (by simp [starting, empty, withCapacity, plottingOver])
  bounded := by simp [starting, empty, withCapacity, plottingOver]

/-! ## Editing -/

theorem Coherent.append (h : session.Coherent) {text : String} (htext : text ≠ "") :
    (session.append text).Coherent where
  idle_iff := by
    constructor
    · intro hmode
      exact absurd hmode (by simp [Session.append])
    · intro hblank
      exact absurd (String.append_eq_empty_iff.mp hblank).2 htext
  scalar := fun hmode => absurd hmode (by simp [Session.append])
  graph := fun hmode => absurd hmode (by simp [Session.append])
  genuine := h.genuine
  bounded := h.bounded

theorem Coherent.eraseLast (h : session.Coherent) : session.eraseLast.Coherent where
  -- the mode is set from the shorter expression, whichever it was before
  idle_iff := by
    rw [eraseLast_mode]
    exact editedMode_eq_idle_iff
  scalar := by
    intro hmode
    rw [eraseLast_mode] at hmode
    exact absurd hmode (editedMode_ne_scalar _)
  graph := by
    intro hmode
    rw [eraseLast_mode] at hmode
    exact absurd hmode (editedMode_ne_graph _)
  genuine := by
    rw [eraseLast_history]
    exact h.genuine
  bounded := by
    rw [eraseLast_history, eraseLast_capacity]
    exact h.bounded

theorem Coherent.clear (h : session.Coherent) : session.clear.Coherent where
  idle_iff := ⟨fun _ => rfl, fun _ => rfl⟩
  scalar := fun hmode => absurd hmode (by simp [Session.clear])
  graph := fun hmode => absurd hmode (by simp [Session.clear])
  genuine := h.genuine
  bounded := h.bounded

/-! ## Evaluation and recall -/

theorem Coherent.evaluate (h : session.Coherent) (stamp : Stamp) :
    (session.evaluate stamp).Coherent := by
  cases session.evaluation stamp with
  | nothing _ same =>
      rw [same]
      exact h
  | graphed typed mentions eq =>
      rw [eq]
      exact
        { idle_iff :=
            ⟨fun hmode => absurd hmode (by simp [evaluateGraph]),
              fun hblank => absurd hblank typed⟩
          scalar := fun hmode => absurd hmode (by simp [evaluateGraph])
          graph := fun _ => ⟨mentions, rfl, rfl⟩
          genuine := h.genuine
          bounded := h.bounded }
  | recorded text typed scalar value eq =>
      rw [eq]
      exact
        { idle_iff := ⟨fun hmode => absurd hmode (by simp), fun hblank => absurd hblank typed⟩
          scalar := fun _ => ⟨scalar, by rw [value]; rfl⟩
          graph := fun hmode => absurd hmode (by simp)
          genuine := by
            intro entry hentry
            -- what is over the limit is dropped, which leaves the rest as true as it was
            rcases List.mem_cons.mp (List.mem_of_mem_take hentry) with rfl | hold
            · exact ⟨typed, scalar, value⟩
            · exact h.genuine entry hold
          bounded := List.length_take_le _ _ }
  | failed typed scalar value eq =>
      rw [eq]
      exact
        { idle_iff := ⟨fun hmode => absurd hmode (by simp), fun hblank => absurd hblank typed⟩
          scalar := fun _ => ⟨scalar, by rw [value]; rfl⟩
          graph := fun hmode => absurd hmode (by simp)
          genuine := h.genuine
          bounded := h.bounded }

/-- Nothing is calculated, and yet the result is the right one: the entry was genuine. -/
theorem Coherent.select (h : session.Coherent) (id : String) : (session.select id).Coherent := by
  cases session.selection id with
  | nothing same =>
      rw [same]
      exact h
  | restored entry mem _ eq =>
      have hgenuine := h.genuine entry mem
      rw [eq]
      exact
        { idle_iff :=
            ⟨fun hmode => absurd hmode (by simp [restore]),
              fun hblank => absurd hblank hgenuine.typed⟩
          scalar := fun _ => ⟨hgenuine.scalar, by simp [restore, hgenuine.value, Outcome.display]⟩
          graph := fun hmode => absurd hmode (by simp [restore])
          genuine := h.genuine
          bounded := h.bounded }

/-! ## Steps and runs -/

theorem Coherent.perform (h : session.Coherent) {action : Action} (haction : action ≠ .append "") :
    (session.perform action).Coherent := by
  cases action with
  | append text => exact h.append (fun htext => haction (by rw [htext]))
  | eraseLast => exact h.eraseLast
  | clear => exact h.clear
  | evaluate stamp => exact h.evaluate stamp
  | select id => exact h.select id

theorem Coherent.run (h : session.Coherent) {actions : List Action}
    (hactions : ∀ action ∈ actions, action ≠ .append "") : (session.run actions).Coherent := by
  induction actions generalizing session with
  | nil => exact h
  | cons action actions ih =>
      rw [run_cons]
      exact ih (h.perform (hactions action List.mem_cons_self))
        (fun other hother => hactions other (List.mem_cons_of_mem action hother))

/-- **Every session is coherent** (`Coherent`), whatever its limit and plotting range and whatever actions it
has performed, as long as none was to `append` an empty text. -/
theorem run_starting_coherent (limit : Nat) (domain : Interval) (steps : Nat)
    (actions : List Action) (hactions : ∀ action ∈ actions, action ≠ .append "") :
    let session := (starting limit domain steps).run actions
    (session.mode = .idle ↔ session.expression = "") ∧
    (session.mode = .scalar →
      mentionsVariable session.expression = false ∧
        session.result = (Calculator.evaluate session.expression).display) ∧
    (session.mode = .graph →
      mentionsVariable session.expression = true ∧ session.result = graphedText ∧
        session.points = curve session.expression domain steps) ∧
    (∀ entry ∈ session.history, mentionsVariable entry.expression = false ∧
      Calculator.evaluate entry.expression = .number entry.result) ∧
    session.history.length ≤ limit := by
  intro session
  have h : session.Coherent := (starting_coherent limit domain steps).run hactions
  obtain ⟨hcapacity, hdomain, hsteps⟩ := run_settings (starting limit domain steps) actions
  refine ⟨h.idle_iff, h.scalar, ?_, fun entry hentry => ?_, ?_⟩
  · intro hmode
    obtain ⟨hmentions, hresult, hpoints⟩ := h.graph hmode
    refine ⟨hmentions, hresult, ?_⟩
    rw [hpoints, hdomain, hsteps]
    rfl
  · have hgenuine := h.genuine entry hentry
    exact ⟨hgenuine.scalar, hgenuine.value⟩
  · have hbounded := h.bounded
    rw [hcapacity] at hbounded
    exact hbounded

/-- A calculation, a graph with a symbol taken back, and the recall of the calculation, where the history has
room for one entry. Before `select` the mode is `editing`; after it the result of `evaluate` is shown again. -/
theorem run_starting_coherent_recall :
    let stamp : Stamp := ⟨"a", ⟨⟨2024, 1, 2⟩, ⟨3, 4, 5, 6⟩⟩⟩
    let edits : List Action := [.append "6×7", .evaluate stamp, .append "+x", .evaluate stamp, .eraseLast]
    let edited := (starting 1 Interval.standard 4).run edits
    let session := (starting 1 Interval.standard 4).run (edits ++ [.select "a"])
    (∀ action ∈ edits ++ [.select "a"], action ≠ .append "") ∧
    (edited.mode = .editing ∧ edited.expression = "6×7+") ∧
    (session.mode = .scalar ∧ session.expression = "6×7" ∧ session.result = "42") ∧
    mentionsVariable session.expression = false ∧
    session.result = (Calculator.evaluate session.expression).display ∧
    session.history.map Calculation.result = ["42"] ∧
    (∀ entry ∈ session.history, mentionsVariable entry.expression = false ∧
      Calculator.evaluate entry.expression = .number entry.result) ∧
    session.history.length ≤ 1 := by
  intro stamp edits edited session
  have hactions : ∀ action ∈ edits ++ [.select "a"], action ≠ .append "" := by decide
  have hedited : edited.mode = .editing ∧ edited.expression = "6×7+" := by decide +kernel
  have hsession : session.mode = .scalar ∧ session.expression = "6×7" ∧ session.result = "42" := by
    decide +kernel
  obtain ⟨-, hscalar, -, hhistory, hlimit⟩ :=
    run_starting_coherent 1 Interval.standard 4 (edits ++ [.select "a"]) hactions
  obtain ⟨hmentions, hdisplay⟩ := hscalar hsession.1
  exact ⟨hactions, hedited, hsession, hmentions, hdisplay, by decide +kernel, hhistory, hlimit⟩

end

end Session

end Calculator
