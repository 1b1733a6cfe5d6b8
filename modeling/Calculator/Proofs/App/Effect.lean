import Calculator.App.Keys
import Mathlib.Data.List.TakeWhile

/-!
# `Proofs.App.Effect` — what an event can do to an inquiry

Most of what happens to the calculator has nothing to do with explanations: it edits, evaluates, scrolls
or walks through the history, and the messenger, the panel and the last explanation stay as they were.
Only two keys can ask for an explanation, and both go through `inquire` with something to ask about. So a
key press has two outcomes, and nobody who reasons about inquiries has to go through the keys again.

## Contents

* `SameInquiries` — what most events keep
* `Asks` — what may be asked about as things stand
* `press_cases`, `inquire_cases` — the outcomes of a key and of asking
* `press_cases_of_messenger` — both together, where there is a messenger
* `askingKey`, `press_askingKey` — the keys that ask
-/

namespace Calculator

theorem Text.trim_eq_nil_iff {text : List Char} :
    Text.trim text = [] ↔ ∀ c ∈ text, Text.isBlank c = true := by
  unfold Text.trim Text.trimEnd Text.trimStart
  rw [List.reverse_eq_nil_iff, List.dropWhile_eq_nil_iff]
  constructor
  · intro h c hc
    rw [← List.takeWhile_append_dropWhile (p := Text.isBlank) (l := text), List.mem_append] at hc
    rcases hc with hc | hc
    · exact List.mem_takeWhile_imp hc
    · exact h c (List.mem_reverse.mpr hc)
  · intro h c hc
    exact h c ((List.dropWhile_sublist _).mem (List.mem_reverse.mp hc))

namespace App

/-- Messenger, panel and explanation are as they were. -/
structure SameInquiries (app after : App) : Prop where
  messenger : after.messenger = app.messenger
  panel : after.panel = app.panel
  analysis : after.analysis = app.analysis

/-- **What may be asked about**: the session's `expression` if there is one, the trimmed `problem` if it is
not blank. -/
inductive Asks (app : App) : Inquiry → Prop where
  | expression (typed : app.session.expression ≠ "") :
      Asks app ⟨.expression, app.session.expression⟩
  | problem (shown : ∃ c ∈ app.problem, Text.isBlank c = false) :
      Asks app ⟨.wordProblem, String.ofList (Text.trim app.problem)⟩

section

variable {app : App} {inquiry : Inquiry}

theorem SameInquiries.refl (app : App) : SameInquiries app app := ⟨rfl, rfl, rfl⟩

/-! ## Events that have nothing to do with inquiries -/

theorem type_same (app : App) (stamp : Stamp) (c : Char) :
    SameInquiries app (app.type stamp c) := by
  unfold type
  split
  · exact ⟨rfl, rfl, rfl⟩
  · split <;> exact ⟨rfl, rfl, rfl⟩

theorem typeWord_same (app : App) (text : String) : SameInquiries app (app.typeWord text) := by
  unfold typeWord
  split <;> exact ⟨rfl, rfl, rfl⟩

theorem typePi_same (app : App) : SameInquiries app app.typePi := by
  unfold typePi
  split <;> exact ⟨rfl, rfl, rfl⟩

theorem backspace_same (app : App) : SameInquiries app app.backspace := by
  unfold backspace
  split <;> exact ⟨rfl, rfl, rfl⟩

theorem clear_same (app : App) : SameInquiries app app.clear := by
  unfold clear
  split <;> exact ⟨rfl, rfl, rfl⟩

theorem navigate_same (app : App) (direction : Int) :
    SameInquiries app (app.navigate direction) := by
  unfold navigate
  split
  · exact .refl app
  · split <;> exact ⟨rfl, rfl, rfl⟩

theorem pressInHelp_same (app : App) (scroll : Nat) (code : KeyCode) :
    SameInquiries app (app.pressInHelp scroll code) := by
  unfold pressInHelp
  split <;> exact ⟨rfl, rfl, rfl⟩

theorem pressWithControl_same (app : App) (code : KeyCode) :
    SameInquiries app (app.pressWithControl code) := by
  unfold pressWithControl
  split
  · exact ⟨rfl, rfl, rfl⟩
  · exact ⟨rfl, rfl, rfl⟩
  · exact app.clear_same
  · exact app.clear_same
  · exact app.typePi_same
  · exact app.typePi_same
  · exact .refl app

theorem pressEscape_same (app : App) : SameInquiries app app.pressEscape := by
  unfold pressEscape
  split
  · exact ⟨rfl, rfl, rfl⟩
  · exact app.clear_same

/-! ## Asking -/

theorem analyze_cases (app : App) :
    app.analyze = app ∨ ∃ inquiry, app.Asks inquiry ∧ app.analyze = app.inquire inquiry := by
  unfold analyze
  by_cases hblank : app.session.expression.isEmpty = true
  · rw [if_pos hblank]
    exact .inl rfl
  · rw [if_neg hblank]
    have htyped : app.session.expression ≠ "" := fun h => hblank (String.isEmpty_iff.mpr h)
    exact .inr ⟨_, .expression htyped, rfl⟩

theorem solve_cases (app : App) :
    app.solve = app ∨ ∃ inquiry, app.Asks inquiry ∧ app.solve = app.inquire inquiry := by
  have hsolve : app.solve = if Text.trim app.problem = [] then app
      else app.inquire ⟨.wordProblem, String.ofList (Text.trim app.problem)⟩ := rfl
  rw [hsolve]
  by_cases hblank : Text.trim app.problem = []
  · rw [if_pos hblank]
    exact .inl rfl
  · rw [if_neg hblank]
    have hshown : ∃ c ∈ app.problem, Text.isBlank c = false := by
      by_contra hall
      refine hblank (Text.trim_eq_nil_iff.mpr fun c hc => ?_)
      by_contra hc'
      exact hall ⟨c, hc, by simpa using hc'⟩
    exact .inr ⟨_, .problem hshown, rfl⟩

theorem submit_cases (app : App) (stamp : Stamp) :
    SameInquiries app (app.submit stamp) ∨
      ∃ inquiry, app.Asks inquiry ∧ app.submit stamp = app.inquire inquiry := by
  unfold submit
  split
  · rcases app.solve_cases with hsame | hasks
    · rw [hsame]
      exact .inl (.refl app)
    · exact .inr hasks
  · exact .inl ⟨rfl, rfl, rfl⟩

theorem pressAlone_cases (app : App) (stamp : Stamp) (code : KeyCode) :
    SameInquiries app (app.pressAlone stamp code) ∨
      ∃ inquiry, app.Asks inquiry ∧ app.pressAlone stamp code = app.inquire inquiry := by
  cases code with
  | character c => exact .inl (app.type_same stamp c)
  | backspace => exact .inl app.backspace_same
  | enter => exact app.submit_cases stamp
  | escape => exact .inl app.pressEscape_same
  | up => exact .inl (app.navigate_same (-1))
  | down => exact .inl (app.navigate_same 1)
  | function number =>
      match number with
      | 1 => exact .inl ⟨rfl, rfl, rfl⟩
      | 2 =>
          rcases app.analyze_cases with hsame | hasks
          · exact .inl (show SameInquiries app app.analyze from hsame.symm ▸ .refl app)
          · exact .inr hasks
      | 3 => exact .inl ⟨rfl, rfl, rfl⟩
      | 0 => exact .inl (.refl app)
      | _ + 4 => exact .inl (.refl app)
  | _ => exact .inl (.refl app)

/-- **The outcomes of a key**: `press` keeps everything about inquiries (`SameInquiries`), or it is
`inquire`. -/
theorem press_cases (app : App) (stamp : Stamp) (key : Key) :
    SameInquiries app (app.press stamp key) ∨
      ∃ inquiry, app.Asks inquiry ∧ app.press stamp key = app.inquire inquiry := by
  unfold press
  split
  · exact .inl (app.pressInHelp_same _ _)
  · by_cases hcontrol : key.control = true
    · rw [if_pos hcontrol]
      exact .inl (app.pressWithControl_same _)
    · rw [if_neg hcontrol]
      exact app.pressAlone_cases stamp key.code

/-- Asking with a messenger at hand: nothing happens while the panel is waiting; otherwise the inquiry
is handed over and the panel waits for it. -/
theorem inquire_cases {messenger : Messenger} (h : app.messenger = some messenger)
    (inquiry : Inquiry) :
    (∃ subject, app.panel = .loading subject ∧ app.inquire inquiry = app) ∨
      (∀ subject, app.panel ≠ .loading subject) ∧
        app.inquire inquiry = { app with
          messenger := some (messenger.submit inquiry), panel := .loading inquiry.subject } := by
  unfold inquire
  split
  · rename_i subject hpanel
    exact .inl ⟨subject, hpanel, rfl⟩
  · rename_i hpanel
    rw [h]
    exact .inr ⟨hpanel, rfl⟩

/-- While nothing is waited for, an inquiry is handed over. -/
theorem inquire_of_idle {messenger : Messenger} (h : app.messenger = some messenger)
    (hidle : ∀ subject, app.panel ≠ .loading subject) (inquiry : Inquiry) :
    app.inquire inquiry = { app with
      messenger := some (messenger.submit inquiry), panel := .loading inquiry.subject } := by
  rcases inquire_cases h inquiry with ⟨subject, hloading, -⟩ | ⟨-, hover⟩
  · exact absurd hloading (hidle subject)
  · exact hover

/-- The key that asks about a subject. -/
def askingKey : Subject → Key
  | .expression => .plain (.function 2)
  | .wordProblem => .plain .enter

/-- Its key asks about whatever may be asked about, where the help page is closed; about the problem,
where the problem is what is typed. -/
theorem press_askingKey (hasks : app.Asks inquiry) (hhelp : app.help = none)
    (hinput : inquiry.subject = .wordProblem → app.input = .problem) (stamp : Stamp) :
    app.press stamp (askingKey inquiry.subject) = app.inquire inquiry := by
  unfold press
  rw [hhelp]
  cases hasks with
  | expression typed =>
      show app.analyze = _
      unfold analyze
      rw [if_neg fun h => typed (String.isEmpty_iff.mp h)]
  | problem shown =>
      show app.submit stamp = _
      have hshown : Text.trim app.problem ≠ [] := by
        intro hblank
        obtain ⟨c, hc, hc'⟩ := shown
        rw [Text.trim_eq_nil_iff.mp hblank c hc] at hc'
        exact absurd hc' (by decide)
      unfold submit
      rw [hinput rfl]
      exact if_neg hshown

/-- The outcomes of a key with a messenger at hand. -/
theorem press_cases_of_messenger {messenger : Messenger} (h : app.messenger = some messenger)
    (stamp : Stamp) (key : Key) :
    SameInquiries app (app.press stamp key) ∨
      ∃ inquiry, app.Asks inquiry ∧ (∀ subject, app.panel ≠ .loading subject) ∧
        app.press stamp key = { app with
          messenger := some (messenger.submit inquiry), panel := .loading inquiry.subject } := by
  rcases app.press_cases stamp key with same | ⟨inquiry, hasks, heq⟩
  · exact .inl same
  · rw [heq]
    rcases inquire_cases h inquiry with ⟨-, -, hstay⟩ | ⟨hidle, hover⟩
    · rw [hstay]
      exact .inl (.refl app)
    · exact .inr ⟨inquiry, hasks, hidle, hover⟩

end

end App

end Calculator
