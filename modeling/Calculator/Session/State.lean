import Calculator.Expression.Outcome
import Calculator.Plot.Sample
import Calculator.Session.Timestamp
import Calculator.Text.Cluster

/-!
# `Session.State` — one calculation after another

A session holds the expression that is being typed, the result of the last evaluation, the points of the
last graph, and the results so far. The mode says which of them the display stands for. A result stays
until it is replaced, also while the expression that it belongs to is edited.

## Contents

* `Mode`, `Calculation`, `Session` — the state
* `Session.append`, `Session.eraseLast`, `Session.clear` — editing
* `Session.evaluate`, `Session.select` — results and their recall
* `Session.Action`, `Session.perform` — the same as one step
-/

namespace Calculator

/-- What the display stands for: nothing, an expression that is edited, or what `evaluate` made of it. -/
inductive Mode where
  | idle
  | editing
  | scalar
  | graph
deriving Repr, DecidableEq

/-- What makes a `Calculation` of the history one of its kind: a fresh name and the moment it was made. -/
structure Stamp where
  id : String
  timestamp : Timestamp
deriving Repr, DecidableEq

/-- A calculation that had a number as its result. -/
structure Calculation where
  id : String
  expression : String
  result : String
  timestamp : Timestamp
deriving Repr, DecidableEq

/-- The state of a session. The history has its newest entry first and at most `capacity` of
them. -/
structure Session where
  expression : String
  result : String
  history : List Calculation
  points : List GraphPoint
  mode : Mode
  capacity : Nat
  domain : Interval
  steps : Nat
deriving Repr, DecidableEq

namespace Session

/-- The number of entries that a history keeps unless another one is asked for. -/
def standardCapacity : Nat := 10

/-- What stands in place of a result when the expression was graphed. -/
def graphedText : String := "Function Graphed"

/-- A session in which nothing has been typed. -/
def empty : Session :=
  { expression := ""
    result := ""
    history := []
    points := []
    mode := .idle
    capacity := standardCapacity
    domain := Interval.standard
    steps := standardSteps }

/-- The session with another `capacity`; entries beyond it are dropped, the oldest first. -/
def withCapacity (session : Session) (limit : Nat) : Session :=
  { session with capacity := limit, history := session.history.take limit }

/-- The session with another `domain` to sample graphs over, in so many `steps`. -/
def plottingOver (session : Session) (domain : Interval) (steps : Nat) : Session :=
  { session with domain := domain, steps := steps }

/-- Whether the display stands for a graph. -/
def showsGraph (session : Session) : Bool := session.mode = .graph

/-! ## Editing -/

/-- The `Mode` of an expression that has just been edited. -/
def editedMode (expression : String) : Mode := if expression.isEmpty then .idle else .editing

/-- Adds text to the expression, whose `Mode` is then `editing`. -/
def append (session : Session) (text : String) : Session :=
  { session with expression := session.expression ++ text, mode := .editing }

/-- A text without the last of its `Text.clusters`. -/
def withoutLastSymbol (text : String) : String :=
  String.ofList (Text.clusters text.toList).dropLast.flatten

/-- Removes the last symbol of the expression, if it has one (`withoutLastSymbol`). -/
def eraseLast (session : Session) : Session :=
  let expression := withoutLastSymbol session.expression
  { session with expression := expression, mode := editedMode expression }

/-- Forgets expression, result and points. The `history` stays. -/
def clear (session : Session) : Session :=
  { session with expression := "", result := "", points := [], mode := .idle }

/-! ## Results -/

/-- The `history` with one more entry in front, up to the `capacity`. -/
def record (session : Session) (entry : Calculation) : List Calculation :=
  (entry :: session.history).take session.capacity

/-- Graphs the expression: its `curve`, and `graphedText` in place of a result. -/
def evaluateGraph (session : Session) : Session :=
  { session with
    points := curve session.expression session.domain session.steps
    result := graphedText
    mode := .graph }

/-- Calculates the expression (`Calculator.evaluate`); a number goes into the history (`record`). -/
def evaluateScalar (session : Session) (stamp : Stamp) : Session :=
  let outcome := Calculator.evaluate session.expression
  { session with
    result := outcome.display
    mode := .scalar
    history := match outcome with
      | .number text =>
        session.record ⟨stamp.id, session.expression, text, stamp.timestamp⟩
      | .error => session.history }

/-- Evaluates the expression: with the free variable in it by `evaluateGraph`, otherwise by `evaluateScalar`.
Nothing happens if there is no expression. -/
def evaluate (session : Session) (stamp : Stamp) : Session :=
  if session.expression.isEmpty then session
  else if mentionsVariable session.expression then session.evaluateGraph
  else session.evaluateScalar stamp

/-- The entry of an id. -/
def entry? (session : Session) (id : String) : Option Calculation :=
  session.history.find? fun entry => entry.id == id

/-- The session that shows an entry of the history. Nothing is calculated anew. -/
def restore (session : Session) (entry : Calculation) : Session :=
  { session with expression := entry.expression, result := entry.result, mode := .scalar }

/-- Does `restore` with the `entry?` of an id, if there is one. -/
def select (session : Session) (id : String) : Session :=
  match session.entry? id with
  | some entry => session.restore entry
  | none => session

/-! ## Steps -/

/-- What a user can do with a session. -/
inductive Action where
  | append (text : String)
  | eraseLast
  | clear
  | evaluate (stamp : Stamp)
  | select (id : String)
deriving Repr, DecidableEq

/-- The session after an `Action`. -/
def perform (session : Session) : Action → Session
  | .append text => session.append text
  | .eraseLast => session.eraseLast
  | .clear => session.clear
  | .evaluate stamp => session.evaluate stamp
  | .select id => session.select id

end Session

end Calculator
