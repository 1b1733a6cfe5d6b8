import Calculator.Json.Record
import Calculator.Session.State

/-!
# `Session.Document` — sessions as documents

A session can be written as a document and taken up again. All its fields are there, whether or not the
display shows them.

## Contents

* `Session.toJson`, `Session.document` — writing
* `Session.ofJson?`, `Session.ofDocument?` — reading
-/

namespace Calculator

/-- The names of the modes. -/
def Mode.names : List (String × Mode) :=
  [("Idle", .idle), ("Editing", .editing), ("ScalarResult", .scalar), ("GraphResult", .graph)]

/-- The name of a mode. -/
def Mode.name : Mode → String
  | .idle => "Idle"
  | .editing => "Editing"
  | .scalar => "ScalarResult"
  | .graph => "GraphResult"

/-! ## Writing -/

/-- A point by its coordinates. -/
def GraphPoint.toJson (point : GraphPoint) : Json :=
  .ofFields [("x", .ofFloat point.x), ("y", .ofFloat point.y)]

/-- An entry of the history. -/
def Calculation.toJson (entry : Calculation) : Json :=
  .ofFields
    [("id", .ofText entry.id), ("expression", .ofText entry.expression),
      ("result", .ofText entry.result),
      ("timestamp", .ofText (String.ofList entry.timestamp.text))]

/-- The ends of a stretch. -/
def Interval.toJson (interval : Interval) : Json :=
  .array [.ofFloat interval.lower, .ofFloat interval.upper]

/-- All fields of a session. -/
def Session.toJson (session : Session) : Json :=
  .ofFields
    [("expression", .ofText session.expression), ("result", .ofText session.result),
      ("history", .array (session.history.map Calculation.toJson)),
      ("graph_points", .array (session.points.map GraphPoint.toJson)),
      ("mode", .ofText session.mode.name), ("history_limit", .ofNat session.capacity),
      ("domain", session.domain.toJson), ("steps", .ofNat session.steps)]

/-- The session as a document. -/
def Session.document (session : Session) : List Char := session.toJson.source

/-! ## Reading -/

/-- The moment that a text tells. -/
def Timestamp.ofJson? (json : Json) : Option Timestamp :=
  json.text?.bind fun text => Timestamp.read? text.toList

/-- A point by its coordinates. -/
def GraphPoint.ofJson? (json : Json) : Option GraphPoint := do
  match ← json.fields? ["x", "y"] with
  | [x, y] => return ⟨← Json.required Json.float? x, ← Json.required Json.float? y⟩
  | _ => none

/-- An entry of the history. -/
def Calculation.ofJson? (json : Json) : Option Calculation := do
  match ← json.fields? ["id", "expression", "result", "timestamp"] with
  | [id, expression, result, timestamp] =>
    return ⟨← Json.required Json.text? id, ← Json.required Json.text? expression,
      ← Json.required Json.text? result, ← Json.required Timestamp.ofJson? timestamp⟩
  | _ => none

/-- A stretch by its two ends. -/
def Interval.ofJson? : Json → Option Interval
  | .array [lower, upper] => do return ⟨← lower.float?, ← upper.float?⟩
  | _ => none

/-- The bits of a count. -/
def Session.countBits : Nat := 64

/-- A session by all its fields. -/
def Session.ofJson? (json : Json) : Option Session := do
  match ← json.fields? ["expression", "result", "history", "graph_points", "mode", "history_limit",
      "domain", "steps"] with
  | [expression, result, history, points, mode, capacity, domain, steps] =>
    return {
      expression := ← Json.required Json.text? expression
      result := ← Json.required Json.text? result
      history := ← Json.required (Json.list? Calculation.ofJson?) history
      points := ← Json.required (Json.list? GraphPoint.ofJson?) points
      mode := ← Json.required (Json.choice? Mode.names) mode
      capacity := ← Json.required (Json.natural? countBits) capacity
      domain := ← Json.required Interval.ofJson? domain
      steps := ← Json.required (Json.natural? countBits) steps }
  | _ => none

/-- The session that a document tells. -/
def Session.ofDocument? (document : List Char) : Option Session :=
  (Json.parse? document).bind Session.ofJson?

end Calculator
