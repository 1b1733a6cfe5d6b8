import Calculator.Keyboard
import Calculator.Session.State

/-!
# `Console.Draft` — the line that is being edited

A line of text has a cursor between its characters. Earlier expressions can be called back into it one
by one, from the newest to the oldest; what is called back is a copy, which may be edited like any text.

## Contents

* `Draft` — text, cursor, and which expression was called back last
* `Draft.left`, `Draft.right` — the text on both sides of the cursor
* `Draft.insert`, `Draft.eraseLeft`, `Draft.eraseRight` — editing
* `Draft.older`, `Draft.newer` — calling back
* `Draft.press` — what a key does
-/

namespace Calculator

/-- A line with its `cursor`, given as the number of characters before it. -/
structure Draft where
  text : List Char
  cursor : Nat
  recalled : Option Nat
deriving Repr, DecidableEq

namespace Draft

/-- An empty line. -/
def empty : Draft := ⟨[], 0, none⟩

/-- The text before the cursor. -/
def left (draft : Draft) : List Char := draft.text.take draft.cursor

/-- The text behind the cursor. -/
def right (draft : Draft) : List Char := draft.text.drop draft.cursor

/-! ## Editing -/

/-- Puts a character before the cursor. -/
def insert (draft : Draft) (c : Char) : Draft :=
  { draft with text := draft.text.insertIdx draft.cursor c, cursor := draft.cursor + 1 }

/-- Removes the character before the cursor, if there is one. -/
def eraseLeft (draft : Draft) : Draft :=
  if 0 < draft.cursor then
    { draft with text := draft.text.eraseIdx (draft.cursor - 1), cursor := draft.cursor - 1 }
  else draft

/-- Removes the character behind the cursor, if there is one. -/
def eraseRight (draft : Draft) : Draft :=
  if draft.cursor < draft.text.length then { draft with text := draft.text.eraseIdx draft.cursor }
  else draft

/-- Moves the cursor over the character before it, if there is one. -/
def goLeft (draft : Draft) : Draft :=
  if 0 < draft.cursor then { draft with cursor := draft.cursor - 1 } else draft

/-- Moves the cursor over the character behind it, if there is one. -/
def goRight (draft : Draft) : Draft :=
  if draft.cursor < draft.text.length then { draft with cursor := draft.cursor + 1 } else draft

/-- Moves the cursor before the text. -/
def goStart (draft : Draft) : Draft := { draft with cursor := 0 }

/-- Moves the cursor behind the text. -/
def goEnd (draft : Draft) : Draft := { draft with cursor := draft.text.length }

/-! ## Calling back -/

/-- A copy of the entry number `i` with the cursor behind it. -/
def copyOf (entry : Calculation) (i : Nat) : Draft :=
  let text := entry.expression.toList
  ⟨text, text.length, some i⟩

/-- The number of the entry before the one that was called back last. -/
def olderIndex (history : List Calculation) : Option Nat → Nat
  | none => 0
  | some i => min (i + 1) (history.length - 1)

/-- Calls back the next older expression (`olderIndex`); at the oldest one, and without any, it stays. -/
def older (history : List Calculation) (draft : Draft) : Draft :=
  let i := olderIndex history draft.recalled
  match history[i]? with
  | some entry => copyOf entry i
  | none => draft

/-- Calls back the next newer expression; after the newest one the line is empty. -/
def newer (history : List Calculation) (draft : Draft) : Draft :=
  match draft.recalled with
  | some (i + 1) =>
    match history[i]? with
    | some entry => copyOf entry i
    | none => draft
  | _ => empty

/-! ## Keys -/

/-- What a key does to the line: it edits, moves the `cursor`, or calls back an `older` or `newer` expression.
Keys with a modifier type nothing. -/
def press (history : List Calculation) (draft : Draft) (key : Key) : Draft :=
  if key.control || key.alt then draft
  else
    match key.code with
    | .character c => draft.insert c
    | .backspace => draft.eraseLeft
    | .delete => draft.eraseRight
    | .left => draft.goLeft
    | .right => draft.goRight
    | .home => draft.goStart
    | .finish => draft.goEnd
    | .up => draft.older history
    | .down => draft.newer history
    | _ => draft

end Draft

end Calculator
