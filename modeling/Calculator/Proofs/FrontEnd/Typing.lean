import Calculator.Console.Dialogue
import Calculator.Proofs.App.InFlight
import Calculator.Proofs.Expression.Spelling
import Calculator.Proofs.Session.Run

/-!
# `Proofs.FrontEnd.Typing` — one text, one answer

A text reaches a session on three ways. On the screen it comes key by key, and each sign is replaced by
the keypad's glyph on the way; on the console it comes as a line, of which the blanks around it are
dropped and then all signs replaced at once; and it can be handed over as it is. The sessions keep three
different expressions, and yet they answer alike: what is replaced or dropped on the way is nothing that
decides how a text is read, be it an expression or not.

## Contents

* `Session.answer`, `Session.answerTo` — what a session shows, and what it will show for a text
* `App.Types`, `App.run_typing` — a text that is typed on the screen
* `Console.submit_of_calculate` — a line of the console
* `front_ends_agree` — the three ways
-/

namespace Calculator

/-! ## Answers -/

/-- What a session shows, apart from the text of its expression. -/
structure Session.Answer where
  mode : Mode
  result : String
  points : List GraphPoint
  results : List String
deriving Repr, DecidableEq

namespace Session

/-- What the session shows. -/
def answer (session : Session) : Answer :=
  ⟨session.mode, session.result, session.points, session.history.map Calculation.result⟩

/-- What the session will show when it has evaluated a text. -/
def answerTo (session : Session) (text : String) : Answer :=
  let results := session.history.map Calculation.result
  if mentionsVariable text then
    ⟨.graph, graphedText, curve text session.domain session.steps, results⟩
  else
    match Calculator.evaluate text with
    | .number shown => ⟨.scalar, shown, session.points, (shown :: results).take session.capacity⟩
    | .error => ⟨.scalar, errorWord, session.points, results⟩

section

variable {session : Session} {s t : String}

theorem answer_evaluate (htyped : session.expression ≠ "") (stamp : Stamp) :
    (session.evaluate stamp).answer = session.answerTo session.expression := by
  unfold answerTo
  cases session.evaluation stamp with
  | nothing blank same => exact absurd blank htyped
  | graphed typed mentions eq =>
      rw [eq, if_pos mentions]
      rfl
  | recorded text typed scalar value eq =>
      rw [eq, if_neg (by simp [scalar]), value]
      simp [answer, record, List.map_take]
  | failed typed scalar value eq =>
      rw [eq, if_neg (by simp [scalar]), value]
      rfl

theorem answerTo_congr (h : ReadAlike s t) (session : Session) :
    session.answerTo s = session.answerTo t := by
  unfold answerTo
  rw [h.mentions, h.evaluate, h.curve]

/-- Where nothing has been typed yet, texts that are read alike are answered alike. -/
theorem answer_append_evaluate (hnew : session.expression = "") (h : ReadAlike s t) (hs : s ≠ "")
    (ht : t ≠ "") (stamp stamp' : Stamp) :
    ((session.append s).evaluate stamp).answer = ((session.append t).evaluate stamp').answer := by
  have htext : ∀ text, (session.append text).expression = text := by
    intro text
    show session.expression ++ text = text
    rw [hnew, String.empty_append]
  rw [answer_evaluate (by rw [htext]; exact hs), answer_evaluate (by rw [htext]; exact ht), htext,
    htext]
  exact answerTo_congr h session

theorem append_append (session : Session) (s t : String) :
    (session.append s).append t = session.append (s ++ t) := by
  simp [append, String.append_assoc]

end

end Session

/-! ## The screen -/

namespace App

/-- The events are the keys that type a text. -/
def Types (events : List Event) (text : List Char) : Prop :=
  List.Forall₂ (fun event c => ∃ stamp, event = .key stamp (.typing c)) events text

/-- Every text can be typed. -/
theorem types_map (stamp : Stamp) (text : List Char) :
    Types (text.map fun c => .key stamp (.typing c)) text :=
  List.forall₂_map_left_iff.mpr (List.forall₂_same.mpr fun _ _ => ⟨stamp, rfl⟩)

section

variable {app : App} {events : List Event} {text : List Char} {c : Char}

theorem perform_typing (app : App) (hinput : app.input = .expression) (hhelp : app.help = none) (hc : c ≠ '=')
    (stamp : Stamp) :
    app.perform (.key stamp (.typing c)) = app.append (String.singleton (keypadGlyph c)) := by
  show app.press stamp (.typing c) = _
  unfold press
  rw [hhelp]
  show app.type stamp c = _
  unfold type
  rw [hinput]
  exact if_neg hc

theorem perform_enter (app : App) (hinput : app.input = .expression) (hhelp : app.help = none)
    (stamp : Stamp) : app.perform (.key stamp (.plain .enter)) = app.evaluate stamp := by
  show app.press stamp (.plain .enter) = _
  unfold press
  rw [hhelp]
  show app.submit stamp = _
  unfold submit
  rw [hinput]

theorem append_append (app : App) (s t : String) :
    (app.append s).append t = app.append (s ++ t) := by
  show ({ app with session := (app.session.append s).append t } : App) = _
  rw [Session.append_append]
  rfl

/-- Behind what has been typed, one key after the other adds to the expression. -/
theorem run_typing_append (h : Types events text) (hequals : '=' ∉ text)
    (hinput : app.input = .expression) (hhelp : app.help = none) (start : String) :
    (app.append start).run events =
      app.append (start ++ String.ofList (text.map keypadGlyph)) := by
  induction h generalizing start with
  | nil =>
      rw [List.map_nil, String.ofList_nil, String.append_empty]
      rfl
  | @cons event c events text hevent hrest ih =>
      obtain ⟨stamp, rfl⟩ := hevent
      obtain ⟨hc, htext⟩ : '=' ≠ c ∧ '=' ∉ text := by simpa using hequals
      have hkey := perform_typing (app.append start) hinput hhelp hc.symm stamp
      calc (app.append start).run (.key stamp (.typing c) :: events)
          = ((app.append start).append (String.singleton (keypadGlyph c))).run events := by
            rw [← hkey]
            rfl
        _ = app.append (start ++ String.singleton (keypadGlyph c) ++
              String.ofList (text.map keypadGlyph)) := by rw [append_append, ih htext]
        _ = app.append (start ++ String.ofList ((c :: text).map keypadGlyph)) := by
            rw [List.map_cons, String.ofList_cons, String.append_assoc]

/-- **Typing a text** (`Types`) adds each character to the expression as its `keypadGlyph`. -/
theorem run_typing (h : Types events text) (htext : text ≠ []) (hequals : '=' ∉ text)
    (hinput : app.input = .expression) (hhelp : app.help = none) :
    app.run events = app.append (String.ofList (text.map keypadGlyph)) := by
  cases h with
  | nil => exact absurd rfl htext
  | @cons event c events text hevent hrest =>
      obtain ⟨stamp, rfl⟩ := hevent
      obtain ⟨hc, hothers⟩ : '=' ≠ c ∧ '=' ∉ text := by simpa using hequals
      show (app.perform (.key stamp (.typing c))).run events = _
      rw [perform_typing app hinput hhelp hc.symm, run_typing_append hrest hothers hinput hhelp,
        List.map_cons, String.ofList_cons]

/-- Typing a text and finishing it evaluates it. -/
theorem run_typing_enter (h : Types events text) (htext : text ≠ []) (hequals : '=' ∉ text)
    (hinput : app.input = .expression) (hhelp : app.help = none) (stamp : Stamp) :
    (app.run (events ++ [.key stamp (.plain .enter)])).session =
      (app.session.append (String.ofList (text.map keypadGlyph))).evaluate stamp := by
  have htyped := run_typing h htext hequals hinput hhelp
  have henter := perform_enter (app.append (String.ofList (text.map keypadGlyph))) hinput hhelp stamp
  unfold run at htyped ⊢
  rw [List.foldl_append, htyped, List.foldl_cons, henter]
  rfl

end

end App

/-! ## The console -/

section

variable {session : Session} {draft : Draft} {rows : Nat → Nat} {finished : Nat}

theorem Console.submit_of_calculate {expression : String}
    (h : Command.ofLine draft.text = .calculate expression) (stamp : Stamp) :
    ((⟨session, draft, rows, finished⟩ : Console).submit stamp).next =
      some ⟨calculate session stamp expression, .empty, rows, finished + 1⟩ := by
  unfold submit
  rw [h]
  rfl

end

/-! ## The three ways -/

theorem ofList_ne_empty {text : List Char} (h : text ≠ []) : String.ofList text ≠ "" :=
  fun hempty => h (String.ofList_eq_empty_iff.mp hempty)

/-- **One text, one answer.** A text with something on it and without the sign that asks for a result may be
typed on the screen (`App.Types`) and finished there, handed to a session by `append` and `evaluate`, or given
to `Console.calculate` as a line: the sessions have the same `answer`, which is the mode, the result, the
graph and the results so far. `Console.submit` does calculate a line unless it is one of `Command.words`. -/
theorem front_ends_agree (limit : Nat) (domain : Interval) (steps : Nat)
    (messenger : Option Messenger) (text : String) (hequals : '=' ∉ text.toList)
    (hshown : ∃ c ∈ text.toList, Text.isBlank c = false) (events : List App.Event)
    (htypes : App.Types events text.toList) (stamp stamp' stamp'' : Stamp) :
    let session := Session.starting limit domain steps
    let onScreen :=
      ((App.start session messenger).run (events ++ [.key stamp (.plain .enter)])).session
    let handedOver := (session.append text).evaluate stamp'
    let onConsole :=
      Console.calculate session stamp'' (Command.expressionOf (Text.trim text.toList))
    onScreen.answer = handedOver.answer ∧ onConsole.answer = handedOver.answer ∧
      ∀ (draft : Draft) (rows : Nat → Nat) (finished : Nat), draft.text = text.toList →
        Command.words.lookup (String.ofList ((Text.trim text.toList).map Char.toLower)) = none →
        ((⟨session, draft, rows, finished⟩ : Console).submit stamp'').next =
          some ⟨onConsole, .empty, rows, finished + 1⟩ := by
  intro session onScreen handedOver onConsole
  obtain ⟨c, hc, hblank⟩ := hshown
  have htext : text.toList ≠ [] := List.ne_nil_of_mem hc
  have htrim : Text.trim text.toList ≠ [] := by
    intro hnil
    rw [Text.trim_eq_nil_iff.mp hnil c hc] at hblank
    exact absurd hblank (by simp)
  have hglyphs : ∀ text : List Char, text ≠ [] → String.ofList (text.map keypadGlyph) ≠ "" :=
    fun text h => ofList_ne_empty (by simpa using h)
  have htyped : text ≠ "" := by simpa using htext
  refine ⟨?_, ?_, fun draft rows finished hdraft hword => ?_⟩
  · have hsession : onScreen = (session.append _).evaluate stamp :=
      App.run_typing_enter htypes htext hequals rfl rfl stamp
    have halike := readAlike_keypadGlyph text.toList
    rw [String.ofList_toList] at halike
    rw [hsession]
    exact Session.answer_append_evaluate rfl halike (hglyphs _ htext) htyped stamp stamp'
  · have halike := (readAlike_keypadGlyph _).trans (readAlike_trim text.toList)
    rw [String.ofList_toList] at halike
    exact Session.answer_append_evaluate rfl halike (hglyphs _ htrim) htyped stamp'' stamp'
  · have hline := Command.ofLine_of_no_command htrim hword
    rw [← hdraft] at hline
    rw [Console.submit_of_calculate hline, hdraft]

/-- A product with blanks around it. -/
theorem front_ends_agree_product :
    let stamp : Stamp := ⟨"a", ⟨⟨2024, 1, 2⟩, ⟨3, 4, 5, 6⟩⟩⟩
    let text := " 6*7 "
    let session := Session.starting 3 Interval.standard 4
    let rows := fun line => line + 7
    let events := text.toList.map fun c => App.Event.key stamp (.typing c)
    let onConsole := Console.calculate session stamp "6×7"
    ('=' ∉ text.toList ∧ ∃ c ∈ text.toList, Text.isBlank c = false) ∧
    ((App.start session none).run (events ++ [.key stamp (.plain .enter)])).session.answer =
      ((session.append text).evaluate stamp).answer ∧
    onConsole.answer = ((session.append text).evaluate stamp).answer ∧
    ((⟨session, ⟨text.toList, 5, none⟩, rows, 2⟩ : Console).submit stamp).next =
      some ⟨onConsole, .empty, rows, 3⟩ := by
  intro stamp text session rows events onConsole
  have hequals : '=' ∉ text.toList := by decide
  have hshown : ∃ c ∈ text.toList, Text.isBlank c = false := ⟨'6', by decide, by decide⟩
  have hline : Command.expressionOf (Text.trim text.toList) = "6×7" := by decide +kernel
  have hword : Command.words.lookup (String.ofList ((Text.trim text.toList).map Char.toLower)) =
      none := by decide +kernel
  obtain ⟨hscreen, hconsole, hsubmit⟩ := front_ends_agree 3 Interval.standard 4 none text hequals
    hshown events (App.types_map stamp text.toList) stamp stamp stamp
  have hnext := hsubmit ⟨text.toList, 5, none⟩ rows 2 rfl hword
  rw [hline] at hconsole hnext
  exact ⟨⟨hequals, hshown⟩, hscreen, hconsole, hnext⟩

end Calculator
