import Calculator.Analysis.Service
import Calculator.Analysis.Status
import Calculator.Session.Document
import Calculator.Text.Affix

/-!
# `Analysis.Answer` — reading what the service replies

A reply is a document that holds another one as a text: the outer one comes from the service, the inner
one from the model, which may wrap it in a code fence. The stages come one after the other, and the
first one that fails decides the error.

## Contents

* `Analysis` — an explanation
* `Reply`, `AnalysisError` — what may come instead
* `answerText` — the model's text
* `unfence`, `Analysis.ofText` — the explanation in that text
* `Analysis.ofReply`, `Service.outcome` — all stages
-/

namespace Calculator

/-- An explanation. -/
structure Analysis where
  explanation : String
  steps : List String
  formulas : List String
  plot : Option (List GraphPoint)
deriving Repr, DecidableEq

/-- What comes back for a `Request`: a response, or the reason why there is none. -/
inductive Reply where
  | response (status : Nat) (body : String)
  | failure (reason : String)
deriving Repr, DecidableEq

/-- Why there is no `Analysis`. -/
inductive AnalysisError where
  | noKey
  | offline
  | transport (reason : String)
  | refused (status : Nat) (body : String)
  | unreadable
  | noCandidates
  | noText
  | nothingSaid
deriving Repr, DecidableEq

/-- The cause in words. -/
def AnalysisError.message : AnalysisError → String
  | .noKey => "No API key configured"
  | .offline => "No analysis service available"
  | .transport reason => "HTTP error: " ++ reason
  | .refused status body => "API error: HTTP " ++ Status.text status ++ ": " ++ body
  | .unreadable => "JSON error: the document cannot be read"
  | .noCandidates => "Invalid response: No candidates in response"
  | .noText => "Invalid response: No text in candidate"
  | .nothingSaid => "Invalid response: Empty analysis"

/-! ## The service's document -/

/-- The text of a part. -/
def partText? (json : Json) : Option String := do
  match ← json.fields? ["text"] with
  | [text] => Json.defaulted Json.text? "" text
  | _ => none

/-- The texts of the parts of a content. -/
def contentTexts? (json : Json) : Option (List String) := do
  match ← json.fields? ["parts"] with
  | [parts] => Json.defaulted (Json.list? partText?) [] parts
  | _ => none

/-- The texts of the parts of a candidate. -/
def candidateTexts? (json : Json) : Option (List String) := do
  match ← json.fields? ["content"] with
  | [content] => Json.required contentTexts? content
  | _ => none

/-- The bits of a count of tokens. -/
def tokenCountBits : Nat := 32

/-- The counts of tokens in the prompt and in the answer, if `promptTokenCount` and `candidatesTokenCount` are
there. -/
def usage? (json : Json) : Option (Option Nat × Option Nat) := do
  match ← json.fields? ["promptTokenCount", "candidatesTokenCount"] with
  | [prompt, answer] =>
    let count? := Json.defaulted (Json.optional? (Json.natural? tokenCountBits)) none
    return (← count? prompt, ← count? answer)
  | _ => none

/-- The texts of the `candidates`. The counts of `usageMetadata` are not needed, but they have to be in order
(`usage?`). -/
def candidates? (json : Json) : Option (List (List String)) := do
  match ← json.fields? ["candidates", "usageMetadata"] with
  | [candidates, usage] =>
    let texts ← Json.defaulted (Json.list? candidateTexts?) [] candidates
    let _ ← Json.defaulted (Json.optional? usage?) none usage
    return texts
  | _ => none

/-- The first text of the first candidate: `.noCandidates` if there is none of these, and `.noText` if there
is none of those or it is blank. -/
def firstText : List (List String) → Except AnalysisError String
  | [] => .error .noCandidates
  | [] :: _ => .error .noText
  | (text :: _) :: _ => if text.toList.all Text.isBlank then .error .noText else .ok text

/-- The model's text in the body of a response: the `firstText` of its `candidates?`. -/
def answerText (body : String) : Except AnalysisError String :=
  match (Json.parse? body.toList).bind candidates? with
  | none => .error .unreadable
  | some candidates => firstText candidates

/-! ## The model's document -/

/-- The mark that opens and closes a block of code, for `unfence`. -/
def fence : List Char := "```".toList

/-- A text without the code `fence` around it, if it starts with one, and without blanks around it. -/
def unfence (text : List Char) : List Char :=
  let text := Text.trim text
  match (Text.afterStart? (fence ++ "json".toList) text).or (Text.afterStart? fence text) with
  | some rest => Text.trim (Text.dropEnds fence (Text.trimEnd rest))
  | none => text

namespace Analysis

/-- An `Analysis` by its fields; only `explanation` has to be there. -/
def ofJson? (json : Json) : Option Analysis := do
  match ← json.fields? ["explanation", "steps", "suggestedFormulas", "plotData"] with
  | [explanation, steps, formulas, plot] =>
    return {
      explanation := ← Json.required Json.text? explanation
      steps := ← Json.defaulted (Json.list? Json.text?) [] steps
      formulas := ← Json.defaulted (Json.list? Json.text?) [] formulas
      plot := ← Json.defaulted (Json.optional? (Json.list? GraphPoint.ofJson?)) none plot }
  | _ => none

/-- Whether there is neither an `explanation` nor one of the `steps`. -/
def isEmpty (analysis : Analysis) : Bool := analysis.explanation.isEmpty && analysis.steps.isEmpty

/-- The explanation in a model's text, without its fence (`unfence`): `.nothingSaid` if it `isEmpty`. -/
def ofText (text : String) : Except AnalysisError Analysis :=
  match (Json.parse? (unfence text.toList)).bind ofJson? with
  | none => .error .unreadable
  | some analysis => if analysis.isEmpty then .error .nothingSaid else .ok analysis

/-! ## All stages -/

/-- The explanation in the body of a response: `ofText` of its `answerText`. -/
def ofBody (body : String) : Except AnalysisError Analysis :=
  match answerText body with
  | .error e => .error e
  | .ok text => ofText text

/-- The explanation in a reply: `ofBody`, if there is a response and its status `isSuccess`. -/
def ofReply : Reply → Except AnalysisError Analysis
  | .failure reason => .error (.transport reason)
  | .response status body =>
    if Status.isSuccess status then ofBody body else .error (.refused status body)

end Analysis

/-- What comes of asking a `Service` whose reply to a request would be the given one. -/
def Service.outcome : Service → Reply → Except AnalysisError Analysis
  | .offline, _ => .error .offline
  | .online _ _, reply => Analysis.ofReply reply

end Calculator
