import Calculator.Analysis.Answer

/-!
# `App.Messenger` — carrying inquiries to the service

The calculator does not wait for the service. It hands an inquiry to a messenger, who works through the
inquiries one after the other on its own time and leaves what it found to be picked up. An inquiry is
therefore in one of three places: waiting, underway, or returned.

## Contents

* `Inquiry`, `Finding` — what is carried there and back
* `Messenger` — the three places
* `Messenger.submit`, `Messenger.collect` — the calculator's side
* `Messenger.take`, `Messenger.finish` — the messenger's side
-/

namespace Calculator

/-- A text that is to be explained, as a `Subject`. -/
structure Inquiry where
  subject : Subject
  text : String
deriving Repr, DecidableEq

/-- What came of an `Inquiry`. -/
structure Finding where
  subject : Subject
  outcome : Except AnalysisError Analysis

/-- A messenger and the inquiries with it, the oldest first: those `waiting`, the one `underway`, and the
findings `returned`. -/
structure Messenger where
  service : Service
  waiting : List Inquiry
  underway : Option Inquiry
  returned : List Finding

namespace Messenger

/-- A `Messenger` without inquiries. -/
def idle (service : Service) : Messenger := ⟨service, [], none, []⟩

/-- Hands over an `Inquiry`, which is then the last one `waiting`. -/
def submit (messenger : Messenger) (inquiry : Inquiry) : Messenger :=
  { messenger with waiting := messenger.waiting ++ [inquiry] }

/-- Picks up the oldest `Finding` of those `returned`, if there is one. -/
def collect (messenger : Messenger) : Option (Finding × Messenger) :=
  match messenger.returned with
  | [] => none
  | finding :: rest => some (finding, { messenger with returned := rest })

/-- Moves the oldest `Inquiry` from `waiting` to `underway`, unless one is `underway` already. -/
def take (messenger : Messenger) : Messenger :=
  match messenger.underway, messenger.waiting with
  | none, inquiry :: rest => { messenger with underway := some inquiry, waiting := rest }
  | _, _ => messenger

/-- The `Request` that the inquiry `underway` comes to, if anything is sent for it. -/
def request? (messenger : Messenger) : Option Request :=
  messenger.underway.bind fun inquiry => messenger.service.request? inquiry.subject inquiry.text

/-- Moves the inquiry `underway`, if there is one, to `returned` as a `Finding` with an outcome. -/
def finish (messenger : Messenger) (outcome : Except AnalysisError Analysis) : Messenger :=
  match messenger.underway with
  | some inquiry =>
    { messenger with
      underway := none, returned := messenger.returned ++ [⟨inquiry.subject, outcome⟩] }
  | none => messenger

/-- The subjects of all inquiries with the messenger: `returned`, `underway` and `waiting`, in this order. -/
def outstanding (messenger : Messenger) : List Subject :=
  messenger.returned.map Finding.subject ++ (messenger.underway.map Inquiry.subject).toList
    ++ messenger.waiting.map Inquiry.subject

end Messenger

end Calculator
