import Calculator.Proofs.App.Effect
import Calculator.Screen.Panes

/-!
# `Proofs.App.InFlight` — one inquiry at a time

The calculator and its messenger take their steps in any order. An inquiry waits, is underway, and comes
back as a finding, and none of the messenger's own steps changes which inquiries are with it or in which
order. What keeps them to one at a time is the panel alone: while it waits, nothing is asked, and it stops
waiting only when a finding is picked up. So the panel is an account of the inquiries with the messenger,
and that account is the invariant that every event keeps.

Two records are kept along a run, neither of which the calculator keeps itself: the inquiries that were
handed over and the findings that were picked up. They match one to one, except for the inquiry that the
panel is waiting for.

## Contents

* `Messenger.take_outstanding`, `Messenger.finish_outstanding`, … — what the messenger's steps keep
* `run`, `queued`, `asked`, `collected?`, `pickedUp` — runs and their records
* `InFlight` — the invariant
* `InFlight.perform`, `InFlight.run` — one event, and any number of them
* `waiting_cases`, `InFlight.poll_failed` — when inquiries are handed over, and how failure is shown
* `run_one_at_a_time` — what holds after any events
-/

namespace Calculator

/-! ## The messenger's steps -/

namespace Messenger

variable {messenger rest : Messenger} {finding : Finding}

theorem submit_outstanding (messenger : Messenger) (inquiry : Inquiry) :
    (messenger.submit inquiry).outstanding = messenger.outstanding ++ [inquiry.subject] := by
  simp [submit, outstanding]

theorem take_outstanding (messenger : Messenger) :
    messenger.take.outstanding = messenger.outstanding := by
  unfold take
  split
  · rename_i inquiry waiting hunderway hwaiting
    simp [outstanding, hunderway, hwaiting]
  · rfl

theorem finish_outstanding (messenger : Messenger) (outcome : Except AnalysisError Analysis) :
    (messenger.finish outcome).outstanding = messenger.outstanding := by
  unfold finish
  split
  · rename_i inquiry hunderway
    simp [outstanding, hunderway]
  · rfl

theorem collect_outstanding (h : messenger.collect = some (finding, rest)) :
    messenger.outstanding = finding.subject :: rest.outstanding := by
  unfold collect at h
  split at h
  · exact absurd h (by simp)
  · rename_i first others hreturned
    simp only [Option.some.injEq, Prod.mk.injEq] at h
    obtain ⟨rfl, rfl⟩ := h
    simp [outstanding, hreturned]

theorem collect_waiting (h : messenger.collect = some (finding, rest)) :
    rest.waiting = messenger.waiting := by
  unfold collect at h
  split at h
  · exact absurd h (by simp)
  · simp only [Option.some.injEq, Prod.mk.injEq] at h
    rw [← h.2]

theorem take_waiting_suffix (messenger : Messenger) :
    messenger.take.waiting <:+ messenger.waiting := by
  unfold take
  split
  · rename_i inquiry waiting hunderway hwaiting
    rw [hwaiting]
    exact List.suffix_cons inquiry waiting
  · exact List.suffix_rfl

theorem finish_waiting (messenger : Messenger) (outcome : Except AnalysisError Analysis) :
    (messenger.finish outcome).waiting = messenger.waiting := by
  unfold finish
  split <;> rfl

end Messenger

/-! ## What is waited for and what is shown -/

/-- The subjects that the panel waits for. -/
def Panel.awaited : Panel → List Subject
  | .loading subject => [subject]
  | _ => []

/-- The panel after a finding, if there has been one. -/
def Panel.after : Option Finding → Panel
  | none => .idle
  | some ⟨_, .ok _⟩ => .ready
  | some ⟨subject, .error _⟩ => .failed subject

/-- The explanation of the last finding that has one. -/
def lastAnalysis (findings : List Finding) : Option Analysis :=
  (findings.filterMap fun finding => finding.outcome.toOption).getLast?

theorem Panel.awaited_eq_nil_iff {panel : Panel} :
    panel.awaited = [] ↔ ∀ subject, panel ≠ .loading subject := by
  cases panel <;> simp [awaited]

theorem Panel.awaited_after (last : Option Finding) : (Panel.after last).awaited = [] := by
  rcases last with _ | ⟨subject, _ | _⟩ <;> rfl

theorem lastAnalysis_append_ok (findings : List Finding) (subject : Subject) (analysis : Analysis) :
    lastAnalysis (findings ++ [⟨subject, .ok analysis⟩]) = some analysis := by
  simp [lastAnalysis, List.filterMap_append, Except.toOption]

theorem lastAnalysis_append_error (findings : List Finding) (subject : Subject)
    (e : AnalysisError) :
    lastAnalysis (findings ++ [⟨subject, .error e⟩]) = lastAnalysis findings := by
  simp [lastAnalysis, List.filterMap_append, Except.toOption]

namespace App

/-! ## Runs and their records -/

/-- The calculator after some events, the first one first. -/
def run (app : App) (events : List Event) : App := events.foldl perform app

/-- The inquiries that no messenger has set out with yet. -/
def waiting (app : App) : List Inquiry := (app.messenger.map Messenger.waiting).getD []

/-- The finding that can be picked up. -/
def collected? (app : App) : Option Finding :=
  (app.messenger.bind Messenger.collect).map Prod.fst

/-- The inquiries that an event adds to those waiting. -/
def queued (app : App) (event : Event) : List Inquiry :=
  (app.perform event).waiting.drop app.waiting.length

/-- The findings that an event picks up. -/
def received (app : App) : Event → List Finding
  | .poll => app.collected?.toList
  | _ => []

/-- All inquiries that are handed over in a run, in order. -/
def asked (app : App) : List Event → List Inquiry
  | [] => []
  | event :: events => app.queued event ++ (app.perform event).asked events

/-- All findings that are picked up in a run, in order. -/
def pickedUp (app : App) : List Event → List Finding
  | [] => []
  | event :: events => app.received event ++ (app.perform event).pickedUp events

/-- **The invariant**, of a calculator that has handed over the inquiries `asked` and picked up the
findings `pickedUp`. -/
structure InFlight (asked : List Inquiry) (pickedUp : List Finding) (app : App) : Prop where
  /-- the inquiries with the messenger are those that the panel waits for -/
  outstanding : ∃ messenger, app.messenger = some messenger ∧
    messenger.outstanding = app.panel.awaited
  /-- every inquiry but the one that is waited for has had its finding -/
  matched : asked.map Inquiry.subject = pickedUp.map Finding.subject ++ app.panel.awaited
  /-- when nothing is waited for, the panel shows what became of the last inquiry -/
  settled : app.panel.awaited = [] → app.panel = Panel.after pickedUp.getLast?
  /-- the explanation is the last one that was found -/
  analysis : app.analysis = lastAnalysis pickedUp

section

variable {asked : List Inquiry} {pickedUp : List Finding} {app after : App} {event : Event}
  {messenger rest : Messenger} {inquiry : Inquiry} {finding : Finding}

theorem waiting_eq (h : app.messenger = some messenger) : app.waiting = messenger.waiting := by
  unfold waiting
  rw [h]
  rfl

theorem queued_of_suffix (h : (app.perform event).waiting <:+ app.waiting) :
    app.queued event = [] :=
  List.drop_eq_nil_of_le h.length_le

theorem queued_of_append (h : (app.perform event).waiting = app.waiting ++ [inquiry]) :
    app.queued event = [inquiry] := by
  unfold queued
  rw [h]
  exact List.drop_left

theorem collected?_cases (h : app.collected? = some finding) :
    ∃ messenger rest, app.messenger = some messenger ∧
      messenger.collect = some (finding, rest) := by
  unfold collected? at h
  cases hm : app.messenger with
  | none => simp [hm] at h
  | some messenger =>
      rw [hm, Option.bind_some, Option.map_eq_some_iff] at h
      obtain ⟨⟨found, rest⟩, hcollect, rfl⟩ := h
      exact ⟨messenger, rest, rfl, hcollect⟩

theorem poll_of_collect (hm : app.messenger = some messenger)
    (hcollect : messenger.collect = some (finding, rest)) :
    app.poll = { app with messenger := some rest }.present finding := by
  unfold poll
  rw [hm, Option.bind_some, hcollect]

theorem poll_of_none (h : app.collected? = none) : app.poll = app := by
  unfold poll
  rw [Option.map_eq_none_iff.mp h]

theorem present_messenger (app : App) (finding : Finding) :
    (app.present finding).messenger = app.messenger := by
  unfold present
  split <;> rfl

theorem present_panel (app : App) (finding : Finding) :
    (app.present finding).panel = Panel.after (some finding) := by
  obtain ⟨subject, outcome⟩ := finding
  cases outcome <;> rfl

theorem present_analysis (h : app.analysis = lastAnalysis pickedUp) :
    (app.present finding).analysis = lastAnalysis (pickedUp ++ [finding]) := by
  obtain ⟨subject, outcome⟩ := finding
  cases outcome with
  | ok analysis => exact (lastAnalysis_append_ok pickedUp subject analysis).symm
  | error e => exact h.trans (lastAnalysis_append_error pickedUp subject e).symm

theorem SameInquiries.waiting (same : SameInquiries app after) : after.waiting = app.waiting := by
  unfold App.waiting
  rw [same.messenger]

theorem poll_waiting (app : App) : app.poll.waiting = app.waiting := by
  cases hfound : app.collected? with
  | none => rw [poll_of_none hfound]
  | some finding =>
      obtain ⟨messenger, rest, hm, hcollect⟩ := collected?_cases hfound
      have hafter : app.poll.messenger = some rest := by
        rw [poll_of_collect hm hcollect]
        exact present_messenger _ finding
      rw [waiting_eq hafter, waiting_eq hm, Messenger.collect_waiting hcollect]

theorem withMessenger_messenger (hm : app.messenger = some messenger)
    (step : Messenger → Messenger) :
    (app.withMessenger step).messenger = some (step messenger) := by
  unfold withMessenger
  rw [hm]
  rfl

theorem take_waiting (hm : app.messenger = some messenger) :
    (app.perform .take).waiting <:+ app.waiting := by
  have hafter : (app.perform .take).waiting = messenger.take.waiting :=
    waiting_eq (withMessenger_messenger hm Messenger.take)
  rw [hafter, waiting_eq hm]
  exact messenger.take_waiting_suffix

theorem finish_waiting (hm : app.messenger = some messenger)
    (outcome : Except AnalysisError Analysis) :
    (app.perform (.finish outcome)).waiting = app.waiting := by
  have hafter : (app.perform (.finish outcome)).waiting = (messenger.finish outcome).waiting :=
    waiting_eq (withMessenger_messenger hm fun m => m.finish outcome)
  rw [hafter, messenger.finish_waiting, waiting_eq hm]

/-! ## What keeps the invariant -/

theorem InFlight.same (h : InFlight asked pickedUp app) (same : SameInquiries app after) :
    InFlight asked pickedUp after := by
  obtain ⟨messenger, hm, hout⟩ := h.outstanding
  refine ⟨⟨messenger, same.messenger.trans hm, ?_⟩, ?_, ?_, same.analysis.trans h.analysis⟩
  · rw [same.panel]
    exact hout
  · rw [same.panel]
    exact h.matched
  · rw [same.panel]
    exact h.settled

/-- The messenger may do anything that leaves the same inquiries with it. -/
theorem InFlight.stepped (h : InFlight asked pickedUp app) {step : Messenger → Messenger}
    (hstep : ∀ messenger, (step messenger).outstanding = messenger.outstanding) :
    InFlight asked pickedUp (app.withMessenger step) := by
  obtain ⟨messenger, hm, hout⟩ := h.outstanding
  exact ⟨⟨step messenger, withMessenger_messenger hm step, (hstep messenger).trans hout⟩, h.matched,
    h.settled, h.analysis⟩

/-- An inquiry is handed over while nothing is waited for. -/
theorem InFlight.handedOver (h : InFlight asked pickedUp app) (hm : app.messenger = some messenger)
    (hidle : ∀ subject, app.panel ≠ .loading subject) (inquiry : Inquiry) :
    InFlight (asked ++ [inquiry]) pickedUp { app with
      messenger := some (messenger.submit inquiry), panel := .loading inquiry.subject } := by
  -- nothing is waited for, so nothing is with the messenger either: the inquiry will be the only one
  have hawaited : app.panel.awaited = [] := Panel.awaited_eq_nil_iff.mpr hidle
  obtain ⟨messenger', hm', hout⟩ := h.outstanding
  obtain rfl : messenger = messenger' := Option.some.inj (hm.symm.trans hm')
  refine ⟨⟨messenger.submit inquiry, rfl, ?_⟩, ?_, ?_, h.analysis⟩
  · rw [Messenger.submit_outstanding, hout, hawaited]
    rfl
  · rw [List.map_append, h.matched, hawaited, List.append_nil]
    rfl
  · intro hloading
    exact absurd hloading (by simp [Panel.awaited])

theorem InFlight.loading (h : InFlight asked pickedUp app) (hm : app.messenger = some messenger)
    (hcollect : messenger.collect = some (finding, rest)) :
    app.panel = .loading finding.subject ∧ rest.outstanding = [] := by
  obtain ⟨messenger', hm', hout⟩ := h.outstanding
  obtain rfl : messenger = messenger' := Option.some.inj (hm.symm.trans hm')
  -- a finding that can be picked up is outstanding, so the panel cannot be waiting for nothing
  rw [Messenger.collect_outstanding hcollect] at hout
  cases hpanel : app.panel with
  | idle => simp [hpanel, Panel.awaited] at hout
  | ready => simp [hpanel, Panel.awaited] at hout
  | failed subject => simp [hpanel, Panel.awaited] at hout
  | loading subject =>
      rw [hpanel] at hout
      simp only [Panel.awaited, List.cons.injEq] at hout
      obtain ⟨rfl, hrest⟩ := hout
      exact ⟨rfl, hrest⟩

/-- The finding that was waited for is picked up. -/
theorem InFlight.presented (h : InFlight asked pickedUp app) (hm : app.messenger = some messenger)
    (hcollect : messenger.collect = some (finding, rest)) :
    InFlight asked (pickedUp ++ [finding])
      ({ app with messenger := some rest }.present finding) := by
  obtain ⟨hpanel, hrest⟩ := h.loading hm hcollect
  have hmatched : asked.map Inquiry.subject = (pickedUp ++ [finding]).map Finding.subject := by
    rw [h.matched, hpanel, List.map_append]
    rfl
  refine ⟨⟨rest, present_messenger _ finding, ?_⟩, ?_, ?_, present_analysis h.analysis⟩
  · rw [present_panel, Panel.awaited_after]
    exact hrest
  · rw [present_panel, Panel.awaited_after, List.append_nil]
    exact hmatched
  · intro _
    rw [present_panel, List.getLast?_concat]

/-! ## One event -/

/-- An event adds nothing to the inquiries that are waiting, or it adds one: then nothing is waited for,
and the inquiry is one that may be asked as things stand. -/
theorem waiting_cases (hm : app.messenger = some messenger) (event : Event) :
    (app.perform event).waiting <:+ app.waiting ∨
      ∃ inquiry, (app.perform event).waiting = app.waiting ++ [inquiry] ∧
        (∀ subject, app.panel ≠ .loading subject) ∧ app.Asks inquiry := by
  cases event with
  | key stamp key =>
      rcases press_cases_of_messenger hm stamp key with same | ⟨inquiry, hasks, hidle, hover⟩
      · exact .inl (same.waiting ▸ List.suffix_rfl)
      · refine .inr ⟨inquiry, ?_, hidle, hasks⟩
        rw [perform, hover, waiting_eq hm]
        rfl
  | token text => exact .inl ((app.typeWord_same text).waiting ▸ List.suffix_rfl)
  | navigate direction => exact .inl ((app.navigate_same direction).waiting ▸ List.suffix_rfl)
  | poll => exact .inl (app.poll_waiting ▸ List.suffix_rfl)
  | take => exact .inl (take_waiting hm)
  | finish outcome => exact .inl (finish_waiting hm outcome ▸ List.suffix_rfl)

/-- What may be asked about is asked, while nothing is waited for. -/
theorem askingKey_waiting (hm : app.messenger = some messenger) (hasks : app.Asks inquiry)
    (hidle : ∀ subject, app.panel ≠ .loading subject) (hhelp : app.help = none)
    (hinput : inquiry.subject = .wordProblem → app.input = .problem) (stamp : Stamp) :
    (app.perform (.key stamp (askingKey inquiry.subject))).waiting = app.waiting ++ [inquiry] := by
  rw [perform, press_askingKey hasks hhelp hinput stamp, inquire_of_idle hm hidle, waiting_eq hm]
  rfl

/-- An event that hands over nothing and picks up nothing leaves both records as they are. -/
theorem InFlight.unrecorded (h : InFlight asked pickedUp (app.perform event))
    (hwaiting : (app.perform event).waiting <:+ app.waiting) (hreceived : app.received event = []) :
    InFlight (asked ++ app.queued event) (pickedUp ++ app.received event) (app.perform event) := by
  rw [queued_of_suffix hwaiting, hreceived, List.append_nil, List.append_nil]
  exact h

/-- **Every event keeps the invariant**, with the inquiries `queued` and the findings `received` added to the
records. -/
theorem InFlight.perform (h : InFlight asked pickedUp app) (event : Event) :
    InFlight (asked ++ app.queued event) (pickedUp ++ app.received event) (app.perform event) := by
  obtain ⟨messenger, hm, -⟩ := h.outstanding
  cases event with
  | key stamp key =>
      rcases press_cases_of_messenger hm stamp key with same | ⟨inquiry, -, hidle, hover⟩
      · exact .unrecorded (h.same same) (same.waiting ▸ List.suffix_rfl) rfl
      · have happend : (app.perform (.key stamp key)).waiting = app.waiting ++ [inquiry] := by
          rw [App.perform, hover, waiting_eq hm]
          rfl
        have hreceived : app.received (.key stamp key) = [] := rfl
        rw [queued_of_append happend, hreceived, List.append_nil, App.perform, hover]
        exact h.handedOver hm hidle inquiry
  | token text =>
      have same := app.typeWord_same text
      exact .unrecorded (h.same same) (same.waiting ▸ List.suffix_rfl) rfl
  | navigate direction =>
      have same := app.navigate_same direction
      exact .unrecorded (h.same same) (same.waiting ▸ List.suffix_rfl) rfl
  | poll =>
      have hqueued : app.queued .poll = [] := queued_of_suffix (app.poll_waiting ▸ List.suffix_rfl)
      rw [hqueued, List.append_nil, received, App.perform]
      cases hfound : app.collected? with
      | none =>
          rw [poll_of_none hfound, Option.toList_none, List.append_nil]
          exact h
      | some finding =>
          obtain ⟨messenger', rest, hm', hcollect⟩ := collected?_cases hfound
          rw [poll_of_collect hm' hcollect]
          exact h.presented hm' hcollect
  | take => exact .unrecorded (h.stepped Messenger.take_outstanding) (take_waiting hm) rfl
  | finish outcome =>
      exact .unrecorded (h.stepped fun messenger => messenger.finish_outstanding outcome)
        (finish_waiting hm outcome ▸ List.suffix_rfl) rfl

/-! ## Any number of events -/

theorem inFlight_start (session : Session) (service : Service) :
    InFlight [] [] (start session (some (.idle service))) :=
  ⟨⟨.idle service, rfl, rfl⟩, rfl, fun _ => rfl, rfl⟩

theorem InFlight.run (h : InFlight asked pickedUp app) (events : List Event) :
    InFlight (asked ++ app.asked events) (pickedUp ++ app.pickedUp events) (app.run events) := by
  induction events generalizing app asked pickedUp with
  | nil =>
      rw [App.asked, App.pickedUp, List.append_nil, List.append_nil]
      exact h
  | cons event events ih =>
      rw [App.asked, App.pickedUp, ← List.append_assoc, ← List.append_assoc]
      exact ih (h.perform event)

/-! ## What the invariant rules out -/

/-- A finding that failed is shown as the absence of what was waited for, next to the last explanation. -/
theorem InFlight.poll_failed (h : InFlight asked pickedUp app) (hfound : app.collected? = some finding)
    {e : AnalysisError} (hfailed : finding.outcome = .error e) :
    app.panel = .loading finding.subject ∧ app.poll.panel = .failed finding.subject ∧
      app.poll.analysis = app.analysis := by
  obtain ⟨messenger, rest, hm, hcollect⟩ := collected?_cases hfound
  refine ⟨(h.loading hm hcollect).1, ?_⟩
  rw [poll_of_collect hm hcollect]
  unfold present
  rw [hfailed]
  exact ⟨rfl, rfl⟩

/-- **One inquiry at a time.** After any events, in any order of keys, `take`, `finish` and `poll`: the
messenger's `outstanding` subjects are the one that the panel is `loading`, and none if it is not; an event
adds an inquiry to those `waiting` only while nothing is loading and only if the inquiry is one that the
calculator `Asks`, and then its `askingKey` does add it; the inquiries `asked` and the findings `pickedUp`
match one to one but for the one that is awaited; a finding that failed is shown by `poll` with the
`absenceMessage` of its subject, next to the same `analysis`; otherwise the panel is the one `after` the last
finding, and `analysis` is the `lastAnalysis` of those picked up. -/
theorem run_one_at_a_time (session : Session) (service : Service) (events : List Event) :
    let app := start session (some (.idle service))
    let now := app.run events
    (∃ messenger, now.messenger = some messenger ∧
      (∀ subject, now.panel = .loading subject → messenger.outstanding = [subject]) ∧
      ((∀ subject, now.panel ≠ .loading subject) → messenger.outstanding = [])) ∧
    (∀ event, (now.perform event).waiting <:+ now.waiting ∨
      ∃ inquiry, (now.perform event).waiting = now.waiting ++ [inquiry] ∧
        (∀ subject, now.panel ≠ .loading subject) ∧ now.Asks inquiry) ∧
    (∀ stamp inquiry, now.Asks inquiry → (∀ subject, now.panel ≠ .loading subject) →
      now.help = none → (inquiry.subject = .wordProblem → now.input = .problem) →
      (now.perform (.key stamp (askingKey inquiry.subject))).waiting = now.waiting ++ [inquiry]) ∧
    (app.asked events).map Inquiry.subject =
      (app.pickedUp events).map Finding.subject ++ now.panel.awaited ∧
    (∀ finding e, now.collected? = some finding → finding.outcome = .error e →
      now.panel = .loading finding.subject ∧
      Screen.panelLines now.poll.panel = [Screen.Line.ofText finding.subject.absenceMessage] ∧
      now.poll.analysis = now.analysis) ∧
    ((∀ subject, now.panel ≠ .loading subject) →
      now.panel = Panel.after (app.pickedUp events).getLast?) ∧
    now.analysis = lastAnalysis (app.pickedUp events) := by
  intro app now
  have h : InFlight (app.asked events) (app.pickedUp events) now :=
    (inFlight_start session service).run events
  obtain ⟨messenger, hm, hout⟩ := h.outstanding
  refine ⟨⟨messenger, hm, fun subject hpanel => ?_, fun hidle => ?_⟩, waiting_cases hm,
    fun stamp inquiry hasks hidle hhelp hinput => ?_, h.matched,
    fun finding e hfound hfailed => ?_, fun hidle => ?_, h.analysis⟩
  · rw [hout, hpanel]
    rfl
  · rw [hout]
    exact Panel.awaited_eq_nil_iff.mpr hidle
  · exact askingKey_waiting hm hasks hidle hhelp hinput stamp
  · obtain ⟨hloading, hpanel, hanalysis⟩ := h.poll_failed hfound hfailed
    refine ⟨hloading, ?_, hanalysis⟩
    rw [hpanel]
    rfl
  · exact h.settled (Panel.awaited_eq_nil_iff.mpr hidle)

/-- A question whose answer is picked up and shown, and a second one that fails: `poll` shows the finding of
the first, and then the message for the second next to the explanation that is already there. -/
theorem run_one_at_a_time_answered :
    let stamp : Stamp := ⟨"a", ⟨⟨2024, 1, 2⟩, ⟨3, 4, 5, 6⟩⟩⟩
    let app := start .empty (some (.idle (.online "http://localhost" ⟨"k", "m", 30⟩)))
    let asking : List Event := [.key stamp (.typing '2'), .key stamp (.plain (.function 2))]
    let answered := asking ++ [.take, .finish (.ok ⟨"two", [], [], none⟩)]
    let shown := answered ++ [.poll]
    let failing := shown ++ [.key stamp (.plain (.function 2)), .take, .finish (.error .unreadable)]
    ((app.run asking).panel = .loading .expression ∧ (app.run asking).waiting = [⟨.expression, "2"⟩]) ∧
    (app.run answered).collected? = some ⟨.expression, .ok ⟨"two", [], [], none⟩⟩ ∧
    ((app.run shown).panel = .ready ∧ (app.run shown).analysis = some ⟨"two", [], [], none⟩) ∧
    (app.run failing).collected? = some ⟨.expression, .error .unreadable⟩ ∧
    (app.run failing).panel = .loading .expression ∧
    Screen.panelLines (app.run failing).poll.panel =
      [Screen.Line.ofText Subject.expression.absenceMessage] ∧
    (app.run failing).poll.analysis = some ⟨"two", [], [], none⟩ := by
  intro stamp app asking answered shown failing
  have hpicked : app.pickedUp shown = [⟨.expression, .ok ⟨"two", [], [], none⟩⟩] := by rfl
  have hready : (app.run shown).panel = .ready := by rfl
  have hfound : (app.run failing).collected? = some ⟨.expression, .error .unreadable⟩ := by rfl
  obtain ⟨-, -, -, -, -, -, hshown⟩ := run_one_at_a_time .empty
    (.online "http://localhost" ⟨"k", "m", 30⟩) shown
  obtain ⟨-, -, -, -, hfailed, -, -⟩ := run_one_at_a_time .empty
    (.online "http://localhost" ⟨"k", "m", 30⟩) failing
  obtain ⟨hloading, hlines, hkept⟩ := hfailed _ _ hfound rfl
  refine ⟨⟨by rfl, by rfl⟩, by rfl, ⟨hready, hshown.trans ?_⟩, hfound, hloading, hlines, hkept.trans ?_⟩
  · exact congrArg lastAnalysis hpicked
  · rfl

end

end App

end Calculator
