import Calculator.Json.Tree

/-!
# `Analysis.Service` — asking for an analysis

An expression or a word problem can be explained by a language model over the network. A request is
plain data here: whoever holds the connection sends it and hands the reply back. Without a key there
is nobody to ask, and no request is ever made.

## Contents

* `Subject` — what is to be explained
* `ServiceSettings`, `Service` — whom to ask
* `Request`, `Service.request?` — the question
-/

namespace Calculator

/-- What is to be explained. -/
inductive Subject where
  | expression
  | wordProblem
deriving Repr, DecidableEq

namespace Subject

/-- The question in front of the text that is to be explained. -/
def question : Subject → String
  | .expression => "Analyze this mathematical expression and provide a scientific breakdown: "
  | .wordProblem => "Solve this scientific/math word problem with detailed steps: "

/-- What is shown when there is no explanation to be had. -/
def absenceMessage : Subject → String
  | .expression => "Analysis offline. Quantum sync failed."
  | .wordProblem => "Problem solver offline."

end Subject

/-- The key to the service, the model that is asked, and how long to wait for it. -/
structure ServiceSettings where
  key : String
  model : String
  secondsToWait : Nat
deriving Repr, DecidableEq

namespace ServiceSettings

/-- The model that is asked unless another one is named. -/
def standardModel : String := "gemini-2.5-flash"

/-- How long to wait unless told otherwise. -/
def standardSecondsToWait : Nat := 30

/-- Settings without a key. -/
def standard : ServiceSettings := ⟨"", standardModel, standardSecondsToWait⟩

end ServiceSettings

/-- Whom to ask: nobody (`offline`), or the service at an address (`online`). -/
inductive Service where
  | offline
  | online (address : String) (settings : ServiceSettings)
deriving Repr, DecidableEq

/-- A question as it is sent: the `method`, the `url`, how long to wait for the reply, and the document. -/
structure Request where
  method : String
  url : String
  secondsToWait : Nat
  body : Json

namespace Service

/-- Where the models are. -/
def standardAddress : String := "https://generativelanguage.googleapis.com/v1beta/models"

/-- The `Service` at an address, which needs a `key`. -/
def at? (address : String) (settings : ServiceSettings) : Option Service :=
  if settings.key.isEmpty then none else some (.online address settings)

/-- The `Service` at `standardAddress` that the settings give access to, or the one that is `offline`. -/
def ofSettings (settings : ServiceSettings) : Service :=
  (at? standardAddress settings).getD .offline

/-! ## The question -/

/-- A text in the description of an answer. -/
def textSchema (fields : List (String × Json)) : Json :=
  .ofFields (("type", .ofText "STRING") :: fields)

/-- A list of texts in the description of an answer. -/
def textsSchema (description : String) : Json :=
  .ofFields
    [("type", .ofText "ARRAY"), ("items", textSchema []), ("description", .ofText description)]

/-- The description that every answer has to follow. -/
def answerSchema : Json :=
  .ofFields
    [("type", .ofText "OBJECT"),
      ("properties", .ofFields
        [("explanation",
            textSchema [("description", .ofText "A plain text explanation of the expression.")]),
          ("steps", textsSchema "Step-by-step simplification or evaluation."),
          ("suggestedFormulas", textsSchema "Related scientific or mathematical formulas.")]),
      ("required", .array (["explanation", "steps", "suggestedFormulas"].map Json.ofText))]

/-- The body of a question: the `prompt`, and the `answerSchema` that the answer has to follow. -/
def requestBody (prompt : String) : Json :=
  .ofFields
    [("contents", .array [.ofFields [("parts", .array [.ofFields [("text", .ofText prompt)]])]]),
      ("generationConfig", .ofFields
        [("responseMimeType", .ofText "application/json"), ("responseSchema", answerSchema)])]

/-- The address that a question is sent to: that of the `model` that is asked, with the `key`. -/
def requestUrl (address : String) (settings : ServiceSettings) : String :=
  address ++ "/" ++ settings.model ++ ":generateContent?key=" ++ settings.key

/-- The `Request` with the `question` about a text, if there is somebody to ask. -/
def request? (service : Service) (subject : Subject) (text : String) : Option Request :=
  match service with
  | .offline => none
  | .online address settings =>
    some ⟨"POST", requestUrl address settings, settings.secondsToWait,
      requestBody (subject.question ++ text)⟩

end Service

end Calculator
