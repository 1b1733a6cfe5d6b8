import Calculator.Proofs.Console.Editing
import Calculator.Proofs.Session.Successes

/-!
# `Proofs.Console.Answers` — every line is answered alone

All lines of a dialogue share one session, one list of results and one number of what was called back
last, and yet what is written for a line depends on very little: on the settings, on the line, on the row
that the terminal reports for the line behind it and, where the line asks for the list of results, on which
of the lines before it were successes. Nothing else is handed on, neither a result nor a graph nor an error,
because each line begins by clearing the session and the history is the only thing that clearing spares.

A dialogue is a list of keys. Which lines they finish is read off the run; what has to be written for
these lines is said without a console.

## Contents

* `FinishedLine`, `FinishedLine.success?` — a line, and the entry it adds to a history
* `Settings.answerTo`, `Settings.answers` — what has to be written for lines
* `Console.finishedLines`, `Console.answered` — the lines of a run, and what is written for them
* `Console.readBytes?` — a run that looks things up without asking whether they exist
* `Console.Follows` — the invariant: what a console knows of the lines before
* `Console.Follows.submit`, `Console.Follows.read` — one line, and a whole run
* `Console.lines_answered_alone` — every line of every dialogue
-/

namespace Calculator

/-! ## Lines and their answers -/

/-- A line as it was when it was finished, with the name and the moment that its result would get. -/
structure FinishedLine where
  stamp : Stamp
  text : List Char
deriving Repr, DecidableEq

/-- The entry that a line adds to a history: none, unless it is an expression without the free variable
that has a value. -/
def FinishedLine.success? (line : FinishedLine) : Option Calculation :=
  match Command.ofLine line.text with
  | .calculate expression =>
    if mentionsVariable expression then none
    else
      match valueOf expression with
      | .ok value =>
        some ⟨line.stamp.id, expression, String.ofList (resultNumeral value), line.stamp.timestamp⟩
      | .error _ => none
  | _ => none

/-- The results of some lines, the newest first, as far as there is room for them. -/
def Settings.results (settings : Settings) (lines : List FinishedLine) : List Calculation :=
  (lines.filterMap FinishedLine.success?).reverse.take settings.capacity

/-- **What has to be written for a line**, and then (`beginLine`) for the one that begins behind it on its own
row. An expression is answered with the `report` of a new session; only `history` asks what was `earlier`. -/
def Settings.answerTo (settings : Settings) (rows : Nat → Nat) (earlier : List FinishedLine)
    (line : FinishedLine) : String :=
  let next := beginLine (rows (earlier.length + 1))
  match Command.ofLine line.text with
  | .nothing => "\r\n" ++ next
  | .quit => farewell
  | .clear => "\r\nCleared\r\n\r\n" ++ next
  | .history => historyText (settings.results earlier) ++ next
  | .calculate expression =>
    report ((settings.session.append expression).evaluate line.stamp) ++ next

/-- What has to be written for some lines one after the other. -/
def Settings.answers (settings : Settings) (rows : Nat → Nat) (earlier : List FinishedLine) :
    List FinishedLine → List String
  | [] => []
  | line :: lines =>
    settings.answerTo rows earlier line :: settings.answers rows (earlier ++ [line]) lines

namespace Console

/-- The lines that keys finish. -/
def finishedLines (console : Console) : List (Stamp × Key) → List FinishedLine
  | [] => []
  | (stamp, key) :: rest =>
    let line := if finishesLine key then [⟨stamp, console.draft.text⟩] else []
    match (console.press stamp key).next with
    | none => line
    | some next => line ++ next.finishedLines rest

/-- What is written when keys finish lines. -/
def answered (console : Console) (keys : List (Stamp × Key)) : List String :=
  ((keys.zip (console.read keys).outputs).filter fun turn => finishesLine turn.1.2).map Prod.snd

/-- What a key leads to if the line is stored in bytes: nothing where the line fails. -/
def pressBytes? (console : Console) (stamp : Stamp) (key : Key) : Option Turn :=
  if finishesLine key then some (console.submit stamp)
  else if endsDialogue key then some ⟨farewell, none⟩
  else
    (console.draft.pressBytes? console.session.history key).map fun draft =>
      ⟨redraw console.row draft, some { console with draft := draft }⟩

/-- Reads keys into lines that are stored in bytes: nothing if one of them fails. -/
def readBytes? (console : Console) : List (Stamp × Key) → Option Reading
  | [] => some ⟨[], some console, []⟩
  | (stamp, key) :: rest =>
    match console.pressBytes? stamp key with
    | none => none
    | some turn =>
      match turn.next with
      | none => some ⟨[turn.output], none, rest⟩
      | some next =>
        (next.readBytes? rest).map fun reading =>
          { reading with outputs := turn.output :: reading.outputs }

/-- **What a console knows of the lines before**: how many there are, and their `Settings.results`. The
settings and the rows are those of the beginning, and the draft shows a buffer (`Draft.Shows`). -/
structure Follows (settings : Settings) (rows : Nat → Nat) (earlier : List FinishedLine)
    (console : Console) : Prop where
  rows : console.rows = rows
  finished : console.finished = earlier.length
  capacity : console.session.capacity = settings.capacity
  domain : console.session.domain = settings.domain
  steps : console.session.steps = settings.steps
  history : console.session.history = settings.results earlier
  shows : ∃ buffer, console.draft.Shows console.session.history buffer

section

variable {settings : Settings} {rows : Nat → Nat} {earlier : List FinishedLine} {line : FinishedLine}
  {console next : Console} {session : Session} {stamp : Stamp} {key : Key} {output expression : String}
  {keys : List (Stamp × Key)}

/-! ## One expression -/

/-- What is reported of an evaluation does not depend on the history, nor on the room in it. -/
theorem report_evaluate_history (session : Session) (history : List Calculation) (capacity : Nat)
    (stamp : Stamp) :
    report (({ session with history := history, capacity := capacity } : Session).evaluate stamp) =
      report (session.evaluate stamp) := by
  unfold Session.evaluate
  by_cases hblank : session.expression.isEmpty = true
  · rw [if_pos hblank, if_pos hblank]
    rfl
  · rw [if_neg hblank, if_neg hblank]
    by_cases hmentions : mentionsVariable session.expression = true
    · rw [if_pos hmentions, if_pos hmentions]
      rfl
    · rw [if_neg hmentions, if_neg hmentions]
      rfl

/-- An expression is answered without the help of what was before. -/
theorem report_calculate (hdomain : session.domain = settings.domain)
    (hsteps : session.steps = settings.steps) (stamp : Stamp) (expression : String) :
    report (calculate session stamp expression) =
      report ((settings.session.append expression).evaluate stamp) := by
  -- clearing spares the history and the settings, so a new session differs in its history alone
  have hnew : settings.session.append expression =
      { session.clear.append expression with history := [], capacity := settings.capacity } := by
    simp [Settings.session, Session.withCapacity, Session.plottingOver, Session.empty,
      Session.append, Session.clear, hdomain, hsteps]
  rw [hnew, report_evaluate_history]
  rfl

theorem success?_of_calculate (h : Command.ofLine line.text = .calculate expression) :
    line.success? =
      if mentionsVariable expression then none
      else
        match valueOf expression with
        | .ok value =>
          some ⟨line.stamp.id, expression, String.ofList (resultNumeral value),
            line.stamp.timestamp⟩
        | .error _ => none := by
  unfold FinishedLine.success?
  rw [h]

theorem valueOf_empty : valueOf "" = .error (.malformed .empty) := by decide +kernel

/-- A success goes in front of the history, and nothing else changes it. -/
theorem calculate_history (hline : Command.ofLine line.text = .calculate expression)
    (hhistory : session.history.length ≤ session.capacity) :
    (calculate session line.stamp expression).history =
      (line.success?.toList ++ session.history).take session.capacity := by
  have htyped : (session.clear.append expression).expression = expression := String.empty_append
  rw [success?_of_calculate hline]
  unfold calculate
  cases (session.clear.append expression).evaluation line.stamp with
  | nothing blank same =>
      rw [htyped] at blank
      subst blank
      rw [same, valueOf_empty, ite_self, Option.toList_none, List.nil_append,
        List.take_of_length_le hhistory]
      rfl
  | graphed typed mentions eq =>
      rw [htyped] at mentions
      rw [eq, if_pos mentions, Option.toList_none, List.nil_append, List.take_of_length_le hhistory]
      rfl
  | recorded text typed scalar value eq =>
      rw [htyped] at scalar value eq
      obtain ⟨number, hnumber, rfl⟩ := evaluate_eq_number_iff.mp value
      rw [eq, if_neg (by simp [scalar]), hnumber]
      rfl
  | failed typed scalar value eq =>
      rw [htyped] at scalar value
      obtain ⟨e, herror⟩ := evaluate_eq_error_iff.mp value
      rw [eq, if_neg (by simp [scalar]), herror, Option.toList_none, List.nil_append,
        List.take_of_length_le hhistory]
      rfl

/-! ## One line -/

theorem length_results_le (settings : Settings) (lines : List FinishedLine) :
    (settings.results lines).length ≤ settings.capacity := List.length_take_le _ _

/-- The results with those of one more line. -/
theorem results_append (settings : Settings) (earlier : List FinishedLine) (line : FinishedLine) :
    settings.results (earlier ++ [line]) =
      (line.success?.toList ++ settings.results earlier).take settings.capacity := by
  unfold Settings.results
  rw [Session.take_append_take, List.filterMap_append, List.reverse_append]
  cases hsuccess : line.success? <;> simp [hsuccess]

/-- A line without a success leaves the results as they are. -/
theorem results_append_of_none (h : line.success? = none) :
    settings.results (earlier ++ [line]) = settings.results earlier := by
  rw [results_append, h, Option.toList_none, List.nil_append,
    List.take_of_length_le (length_results_le settings earlier)]

theorem start_follows (settings : Settings) (rows : Nat → Nat) :
    Follows settings rows [] (start settings rows).2 where
  rows := rfl
  finished := rfl
  capacity := rfl
  domain := rfl
  steps := rfl
  history := by simp [start, Settings.session, Session.withCapacity, Session.plottingOver,
    Session.empty, Settings.results]
  shows := ⟨.empty, Draft.empty_shows _⟩

/-- The line behind an answer begins on its row and is empty, and all that its console knows of the lines
before, their number apart, it knows from the session. -/
theorem Follows.answering (h : Follows settings rows earlier console) (answer : String)
    (hcapacity : session.capacity = settings.capacity) (hdomain : session.domain = settings.domain)
    (hsteps : session.steps = settings.steps)
    (hhistory : session.history = settings.results (earlier ++ [line])) :
    (console.answering answer session).output = answer ++ beginLine (rows (earlier.length + 1)) ∧
      ∀ next, (console.answering answer session).next = some next →
        Follows settings rows (earlier ++ [line]) next := by
  refine ⟨by rw [Console.answering, h.rows, h.finished], fun next hnext => ?_⟩
  obtain rfl := Option.some.inj hnext
  have hfinished : console.finished + 1 = (earlier ++ [line]).length := by
    rw [h.finished, List.length_append, List.length_singleton]
  exact ⟨h.rows, hfinished, hcapacity, hdomain, hsteps, hhistory, .empty, Draft.empty_shows _⟩

/-- **A line is answered**: `submit` writes `answerTo` of it, and `Follows` holds of what is next with the
line added. -/
theorem Follows.submit (h : Follows settings rows earlier console) (stamp : Stamp) :
    let line : FinishedLine := ⟨stamp, console.draft.text⟩
    (console.submit stamp).output = settings.answerTo rows earlier line ∧
      ∀ next, (console.submit stamp).next = some next →
        Follows settings rows (earlier ++ [line]) next := by
  intro line
  have hsame : line.success? = none →
      console.session.history = settings.results (earlier ++ [line]) :=
    fun hnone => h.history.trans (results_append_of_none hnone).symm
  unfold Console.submit Settings.answerTo
  cases hline : Command.ofLine line.text with
  | nothing =>
      have hnone : line.success? = none := by rw [FinishedLine.success?, hline]
      exact h.answering _ h.capacity h.domain h.steps (hsame hnone)
  | quit => exact ⟨rfl, fun next hnext => absurd hnext (by simp)⟩
  | clear =>
      have hnone : line.success? = none := by rw [FinishedLine.success?, hline]
      exact h.answering _ h.capacity h.domain h.steps (hsame hnone)
  | history =>
      have hnone : line.success? = none := by rw [FinishedLine.success?, hline]
      rw [← h.history]
      exact h.answering _ h.capacity h.domain h.steps (hsame hnone)
  | calculate expression =>
      have hroom : console.session.history.length ≤ console.session.capacity := by
        rw [h.history, h.capacity]
        exact length_results_le settings earlier
      obtain ⟨hcapacity, hdomain, hsteps⟩ :=
        (console.session.clear.append expression).evaluate_settings stamp
      have hhistory : (calculate console.session stamp expression).history =
          settings.results (earlier ++ [line]) := by
        rw [calculate_history hline hroom, h.history, h.capacity, results_append]
      obtain ⟨houtput, hnext⟩ := h.answering (report (calculate console.session stamp expression))
        (hcapacity.trans h.capacity) (hdomain.trans h.domain) (hsteps.trans h.steps) hhistory
      refine ⟨houtput.trans ?_, hnext⟩
      rw [report_calculate h.domain h.steps]

/-! ## One key -/

/-- **A key** that `finishesLine` has the line answered by `answerTo`; any other keeps `Follows` as it is.
Neither fails in `pressBytes?`. -/
theorem Follows.press (h : Follows settings rows earlier console) (stamp : Stamp) (key : Key) :
    console.pressBytes? stamp key = some (console.press stamp key) ∧
      (finishesLine key = true →
        (console.press stamp key).output =
          settings.answerTo rows earlier ⟨stamp, console.draft.text⟩) ∧
      ∀ next, (console.press stamp key).next = some next →
        Follows settings rows
          (if finishesLine key then earlier ++ [⟨stamp, console.draft.text⟩] else earlier) next := by
  unfold pressBytes? Console.press
  by_cases hfinishes : finishesLine key = true
  · obtain ⟨houtput, hnext⟩ := h.submit stamp
    simp only [if_pos hfinishes]
    exact ⟨trivial, fun _ => houtput, hnext⟩
  · simp only [if_neg hfinishes]
    by_cases hends : endsDialogue key = true
    · simp only [if_pos hends]
      exact ⟨trivial, fun hfinished => absurd hfinished hfinishes,
        fun next hnext => absurd hnext (by simp)⟩
    · simp only [if_neg hends]
      obtain ⟨buffer, hshows⟩ := h.shows
      obtain ⟨after, hafter, -⟩ := hshows.press key
      refine ⟨by rw [hshows.pressBytes?_eq]; rfl, fun hfinished => absurd hfinished hfinishes, ?_⟩
      intro next hnext
      obtain rfl := Option.some.inj hnext
      exact ⟨h.rows, h.finished, h.capacity, h.domain, h.steps, h.history, after, hafter⟩

/-! ## A whole run -/

/-- Nothing fails in a run. -/
theorem Follows.readBytes?_eq (h : Follows settings rows earlier console) (keys : List (Stamp × Key)) :
    console.readBytes? keys = some (console.read keys) := by
  induction keys generalizing earlier console with
  | nil => rfl
  | cons key keys ih =>
      obtain ⟨stamp, key⟩ := key
      obtain ⟨hbytes, -, hfollows⟩ := h.press stamp key
      simp only [readBytes?, read, hbytes]
      cases hnext : (console.press stamp key).next with
      | none => rfl
      | some next => simp only [ih (hfollows next hnext), Option.map_some]

theorem answered_cons (console : Console) (stamp : Stamp) (key : Key) (keys : List (Stamp × Key)) :
    console.answered ((stamp, key) :: keys) =
      (if finishesLine key then [(console.press stamp key).output] else []) ++
        match (console.press stamp key).next with
        | none => []
        | some next => next.answered keys := by
  unfold answered
  rw [read]
  cases hnext : (console.press stamp key).next with
  | none => by_cases hfinishes : finishesLine key = true <;> simp [hfinishes]
  | some next => by_cases hfinishes : finishesLine key = true <;> simp [hfinishes]

theorem finishedLines_cons (console : Console) (stamp : Stamp) (key : Key)
    (keys : List (Stamp × Key)) :
    console.finishedLines ((stamp, key) :: keys) =
      (if finishesLine key then [⟨stamp, console.draft.text⟩] else []) ++
        match (console.press stamp key).next with
        | none => []
        | some next => next.finishedLines keys := by
  rw [finishedLines]
  cases (console.press stamp key).next with
  | none => exact (List.append_nil _).symm
  | some next => rfl

/-- **All lines of a run are answered** by `Settings.answers`, each with the ones before it. -/
theorem Follows.answered_eq (h : Follows settings rows earlier console) (keys : List (Stamp × Key)) :
    console.answered keys = settings.answers rows earlier (console.finishedLines keys) := by
  induction keys generalizing earlier console with
  | nil => rfl
  | cons key keys ih =>
      obtain ⟨stamp, key⟩ := key
      obtain ⟨-, houtput, hfollows⟩ := h.press stamp key
      rw [answered_cons, finishedLines_cons]
      by_cases hfinishes : finishesLine key = true
      · simp only [if_pos hfinishes] at hfollows ⊢
        rw [houtput hfinishes]
        refine congrArg _ ?_
        cases hnext : (console.press stamp key).next with
        | none => rfl
        | some next => exact ih (hfollows next hnext)
      · simp only [if_neg hfinishes, List.nil_append] at hfollows ⊢
        cases hnext : (console.press stamp key).next with
        | none => rfl
        | some next => exact ih (hfollows next hnext)

theorem answers_getElem? {lines : List FinishedLine} {n : Nat} (h : lines[n]? = some line) :
    (settings.answers rows earlier lines)[n]? =
      some (settings.answerTo rows (earlier ++ lines.take n) line) := by
  induction lines generalizing earlier n with
  | nil => exact absurd h (by simp)
  | cons first lines ih =>
      cases n with
      | zero =>
          obtain rfl : first = line := by simpa using h
          simp [Settings.answers]
      | succ n =>
          rw [Settings.answers, List.getElem?_cons_succ, ih h, List.take_succ_cons,
            List.append_assoc, List.singleton_append]

/-- **Every line is answered alone.** Whatever the settings, whatever rows the terminal reports and whatever
keys are pressed, `Console.readBytes?` succeeds: the dialogue fails nowhere, also where the lines are stored in
bytes. What is written for its lines (`Console.answered`) is `Settings.answers` of them: a line that is an
expression is answered with the `report` of a new session, whatever was before, and a list of results has the
`FinishedLine.success?` of the lines before, the newest first, as many as `settings.capacity` has room for. -/
theorem lines_answered_alone (settings : Settings) (rows : Nat → Nat) (keys : List (Stamp × Key)) :
    let console := (start settings rows).2
    let lines := console.finishedLines keys
    console.readBytes? keys = some (console.read keys) ∧
    console.answered keys = settings.answers rows [] lines ∧
    (∀ (n : Nat) (line : FinishedLine), lines[n]? = some line → Text.trim line.text ≠ [] →
      Command.words.lookup (String.ofList ((Text.trim line.text).map Char.toLower)) = none →
      (console.answered keys)[n]? =
        some (report ((settings.session.append
          (Command.expressionOf (Text.trim line.text))).evaluate line.stamp) ++
            beginLine (rows (n + 1)))) ∧
    (∀ (n : Nat) (line : FinishedLine), lines[n]? = some line →
      Command.ofLine line.text = .history →
      (console.answered keys)[n]? =
        some (historyText (((lines.take n).filterMap FinishedLine.success?).reverse.take
          settings.capacity) ++ beginLine (rows (n + 1)))) := by
  intro console lines
  have h := start_follows settings rows
  have hanswered : console.answered keys = settings.answers rows [] lines := h.answered_eq keys
  have hearlier : ∀ {n line}, lines[n]? = some line → ([] ++ lines.take n).length = n := by
    intro n line hline
    rw [List.nil_append, List.length_take_of_le (Nat.le_of_lt (List.getElem?_eq_some_iff.mp hline).1)]
  refine ⟨h.readBytes?_eq keys, hanswered, ?_, ?_⟩
  · intro n line hline hshown hword
    rw [hanswered, answers_getElem? hline, Settings.answerTo,
      Command.ofLine_of_no_command hshown hword, hearlier hline]
  · intro n line hline hcommand
    rw [hanswered, answers_getElem? hline, Settings.answerTo, hcommand, hearlier hline]
    rfl

/-- A product, a line that fails and a graph, and then the list of results, on a terminal of three rows. -/
theorem lines_answered_alone_product :
    let stamp : Stamp := ⟨"a", ⟨⟨2024, 1, 2⟩, ⟨3, 4, 5, 6⟩⟩⟩
    let settings : Settings :=
      { Settings.ofLookup (fun _ => none) with steps := 4, capacity := 1 }
    let rows := fun line => min (line + 1) 3
    let keys := [" 6*7 ", "ln", "2x", "History"].flatMap fun text =>
      text.toList.map (fun c => (stamp, Key.typing c)) ++ [(stamp, Key.plain .enter)]
    let lines := (start settings rows).2.finishedLines keys
    let answered := (start settings rows).2.answered keys
    lines[0]? = some ⟨stamp, " 6*7 ".toList⟩ ∧ lines[3]? = some ⟨stamp, "History".toList⟩ ∧
    answered[0]? = some ("\r\n  6×7 = 42\r\n\r\n" ++ beginLine 2) ∧
    answered[3]? = some ("\r\n  03:04:05  6×7 = 42\r\n\r\n" ++ beginLine 3) := by
  intro stamp settings rows keys lines answered
  have hproduct : lines[0]? = some ⟨stamp, " 6*7 ".toList⟩ := by decide +kernel
  have hlist : lines[3]? = some ⟨stamp, "History".toList⟩ := by decide +kernel
  obtain ⟨-, -, hexpression, hhistory⟩ := lines_answered_alone settings rows keys
  refine ⟨hproduct, hlist, ?_, ?_⟩
  · have h := hexpression 0 _ hproduct (by decide +kernel) (by decide +kernel)
    rw [show report ((settings.session.append
      (Command.expressionOf (Text.trim " 6*7 ".toList))).evaluate stamp) =
        "\r\n  6×7 = 42\r\n\r\n" by decide +kernel] at h
    exact h
  · have h := hhistory 3 _ hlist (by decide +kernel)
    rw [show historyText (((lines.take 3).filterMap FinishedLine.success?).reverse.take
      settings.capacity) = "\r\n  03:04:05  6×7 = 42\r\n\r\n" by decide +kernel] at h
    exact h

end

end Console

end Calculator
