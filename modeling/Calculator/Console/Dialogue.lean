import Calculator.Console.Command
import Calculator.Console.Draft
import Calculator.Plot.Axes
import Calculator.Settings

/-!
# `Console.Dialogue` — calculating line by line

The console writes a prompt, lets the user edit a line, and answers it. It is driven key by key: every
key gives the text to be written before the next key is read, and the console that reads it, or none if
the dialogue is over. A line on the screen is always written anew as a whole, on the row that the terminal
reported when the line began.

## Contents

* `prompt`, `redraw` — what is written on the line
* `report` — the answer to an expression
* `Console`, `Console.submit`, `Console.press` — the dialogue
* `Console.start`, `Console.read` — its beginning, and a run over several keys
-/

namespace Calculator

/-! ## What is written -/

/-- Empties the line that the terminal's cursor is on. -/
def clearLine : String := "\x1b[2K"

/-- Moves the terminal's cursor. -/
def goTo (column row : Nat) : String :=
  "\x1b[" ++ toString row ++ ";" ++ toString column ++ "H"

/-- What stands in front of the line. -/
def prompt : String := "Expression: "

/-- The number of columns that a terminal can be asked for, and at which counting starts again. -/
def columnLimit : Nat := Nat.pow 2 16

/-- Writes the draft anew on its row, behind the `prompt`, and moves the terminal's cursor to its place. -/
def redraw (row : Nat) (draft : Draft) : String :=
  goTo 1 row ++ clearLine ++ prompt ++ String.ofList draft.text
    ++ goTo ((prompt.length + 1 + draft.left.length) % columnLimit) row

/-- Begins an empty line. The `prompt` is written wherever the terminal's cursor is, and its row is asked for
then. -/
def beginLine (row : Nat) : String := clearLine ++ prompt ++ redraw row .empty

/-- What is written before the first line. -/
def banner (domain : Interval) : String :=
  "Scientific Console Calculator\n"
    ++ "Supports: +, -, ×/*, ÷//, ^, π/pi, e, sin, cos, tan, log, ln, sqrt\n"
    ++ "Expressions containing x are graphed over [" ++ String.ofList (plainNumeral domain.lower)
    ++ ", " ++ String.ofList (plainNumeral domain.upper) ++ "]\n"
    ++ "Navigation: ←/→, Backspace/Delete, Home/End, ↑/↓ for history\n"
    ++ "Special commands: 'quit' to exit, 'clear' to reset, 'history' to list\n\n"

/-- The last words. -/
def farewell : String := "\r\nGoodbye!\r\n"

/-- The result of the expression of a session: its value, or how far its graph extends. -/
def resultText (session : Session) : String :=
  if session.showsGraph then
    match heightRange session.points with
    | some extent =>
      session.result ++ " (" ++ toString session.points.length ++ " points, y in ["
        ++ String.ofList (resultNumeral extent.lower) ++ ", "
        ++ String.ofList (resultNumeral extent.upper) ++ "])"
    | none => "nothing to plot on this domain"
  else session.result

/-- The answer to the expression of a session: the expression and its `resultText`. -/
def report (session : Session) : String :=
  "\r\n  " ++ session.expression ++ " = " ++ resultText session ++ "\r\n\r\n"

/-- An entry in the list of results. -/
def entryLine (entry : Calculation) : String :=
  "  " ++ String.ofList entry.timestamp.clock.text ++ "  " ++ entry.expression ++ " = "
    ++ entry.result ++ "\r\n"

/-- The list of results. -/
def historyText (history : List Calculation) : String :=
  "\r\n" ++ String.join (history.map entryLine) ++ "\r\n"

/-! ## The dialogue -/

/-- A console that waits for a key. Of the terminal it knows the rows that are reported for its lines, one
after the other; `finished` counts the lines before the one that is being edited. -/
structure Console where
  session : Session
  draft : Draft
  rows : Nat → Nat
  finished : Nat

namespace Console

/-- The row of the line that is being edited. -/
def row (console : Console) : Nat := console.rows console.finished

/-- What a key leads to: the text that is written, and the `Console` that waits for the next key unless the
dialogue is over. -/
structure Turn where
  output : String
  next : Option Console

/-- The session after an expression, of which nothing but its `history` depends on what was before. -/
def calculate (session : Session) (stamp : Stamp) (expression : String) : Session :=
  (session.clear.append expression).evaluate stamp

/-- A `Turn` that answers the line and begins the next one (`beginLine`). -/
def answering (console : Console) (answer : String) (session : Session) : Turn :=
  let finished := console.finished + 1
  ⟨answer ++ beginLine (console.rows finished), some ⟨session, .empty, console.rows, finished⟩⟩

/-- What a finished line leads to, by its `Command`. -/
def submit (console : Console) (stamp : Stamp) : Turn :=
  let session := console.session
  match Command.ofLine console.draft.text with
  | .nothing => console.answering "\r\n" session
  | .quit => ⟨farewell, none⟩
  | .clear => console.answering "\r\nCleared\r\n\r\n" session.clear
  | .history => console.answering (historyText session.history) session
  | .calculate expression =>
    let session := calculate session stamp expression
    console.answering (report session) session

/-- Whether a key finishes the line (`submit`). -/
def finishesLine (key : Key) : Bool :=
  !key.control && !key.alt && (key.code = .enter || key.code = .character '\n')

/-- Whether a key ends the dialogue. -/
def endsDialogue (key : Key) : Bool :=
  key.control && (key.code = .character 'c' || key.code = .character 'd')

/-- What a key leads to: `submit`, the end of the dialogue, or `Draft.press`. -/
def press (console : Console) (stamp : Stamp) (key : Key) : Turn :=
  if finishesLine key then console.submit stamp
  else if endsDialogue key then ⟨farewell, none⟩
  else
    let draft := console.draft.press console.session.history key
    ⟨redraw console.row draft, some { console with draft := draft }⟩

/-- The `Console` before the first key, and what has been written by then. The `rows` are those of a terminal
that keeps its cursor at the top unless they are given. -/
def start (settings : Settings) (rows : Nat → Nat := fun _ => 1) : String × Console :=
  (banner settings.domain ++ beginLine (rows 0), ⟨settings.session, .empty, rows, 0⟩)

/-- What a run over keys leaves: the text after each key that was read, the console if it still waits,
and the keys that were not read. -/
structure Reading where
  outputs : List String
  waiting : Option Console
  unread : List (Stamp × Key)

/-- Does `press` with keys until they run out or the dialogue is over. -/
def read (console : Console) : List (Stamp × Key) → Reading
  | [] => ⟨[], some console, []⟩
  | (stamp, key) :: rest =>
    let turn := console.press stamp key
    match turn.next with
    | none => ⟨[turn.output], none, rest⟩
    | some next =>
      let reading := next.read rest
      { reading with outputs := turn.output :: reading.outputs }

end Console

end Calculator
