import Calculator.Console.Dialogue
import Calculator.Proofs.Text.Offset

/-!
# `Proofs.Console.Editing` — the line is two texts

A line is a text and a number, and most pairs of the two make no sense. What the keys are about is simpler:
one text on each side of the cursor. A character is put at the end of the left one, and what is erased or
passed over is taken from the end of the left one or from the beginning of the right one. Calling back
puts everything to the left.

A buffer is these two texts. As long as a line is edited it shows a buffer, every key does to the line
what it does to the buffer, and the entry that was called back last is one of the history. So the cursor
never leaves the text, and an editor that stores the text in bytes and looks things up without asking
whether they exist does the same as this one.

## Contents

* `GapBuffer`, `GapBuffer.Leads`, `GapBuffer.Run` — two texts, and what keys make of them
* `Draft.Shows`, `Draft.InRange` — a line and its buffer, and what follows for what is looked up
* `Draft.Shows.press`, `Draft.Shows.run` — one key, and all keys of a line
* `Draft.pressBytes?`, `Draft.Shows.pressBytes?_eq` — a key on a line that is stored in bytes
* `Writes`, `Draft.Shows.redraw` — what is written
* `Console.read_of_editsLine` — what is read
* `Console.editing_refines_buffer` — a line of the console shows its buffer at every key
-/

namespace Calculator

/-! ## Buffers -/

/-- A text with a gap in it. -/
structure GapBuffer where
  left : List Char
  right : List Char
deriving Repr, DecidableEq

namespace GapBuffer

/-- The buffer without any text. -/
def empty : GapBuffer := ⟨[], []⟩

/-- The buffer with a text on its left. -/
def holding (text : List Char) : GapBuffer := ⟨text, []⟩

/-- Moves the gap over the character on its left. -/
def goLeft (buffer : GapBuffer) : GapBuffer :=
  match buffer.left.getLast? with
  | some c => ⟨buffer.left.dropLast, c :: buffer.right⟩
  | none => buffer

/-- Moves the gap over the character on its right. -/
def goRight (buffer : GapBuffer) : GapBuffer :=
  match buffer.right with
  | c :: right => ⟨buffer.left ++ [c], right⟩
  | [] => buffer

/-- What a key makes of a buffer. Which entry is called back is left open; there is always one, unless the
history is empty or, on the way back, the newest one has been passed. -/
def Leads (history : List Calculation) (key : Key) (before after : GapBuffer) : Prop :=
  if key.control || key.alt then after = before
  else
    match key.code with
    | .character c => after = ⟨before.left ++ [c], before.right⟩
    | .backspace => after = ⟨before.left.dropLast, before.right⟩
    | .delete => after = ⟨before.left, before.right.tail⟩
    | .left => after = before.goLeft
    | .right => after = before.goRight
    | .home => after = ⟨[], before.left ++ before.right⟩
    | .finish => after = ⟨before.left ++ before.right, []⟩
    | .up =>
      history = [] ∧ after = before ∨
        ∃ entry ∈ history, after = holding entry.expression.toList
    | .down => after = empty ∨ ∃ entry ∈ history, after = holding entry.expression.toList
    | _ => after = before

/-- What keys can make of a buffer, one after the other. -/
inductive Run (history : List Calculation) : List Key → GapBuffer → GapBuffer → Prop where
  | nil {buffer : GapBuffer} : Run history [] buffer buffer
  | cons {key : Key} {keys : List Key} {before next after : GapBuffer}
      (leads : Leads history key before next) (rest : Run history keys next after) :
      Run history (key :: keys) before after

end GapBuffer

namespace Draft

/-- A line shows a buffer: it has the texts of both sides, the cursor between them, and what was called
back last, if anything, is an entry of the history. -/
structure Shows (history : List Calculation) (draft : Draft) (buffer : GapBuffer) : Prop where
  text : draft.text = buffer.left ++ buffer.right
  cursor : draft.cursor = buffer.left.length
  recalled : ∀ i, draft.recalled = some i → i < history.length

/-- Everything that is looked up without asking exists: the cursor is in the text, the offsets that
keys edit at are boundaries of characters, there is a character at those where one is removed, and the
entry that was called back last is one of the history. -/
structure InRange (history : List Calculation) (draft : Draft) : Prop where
  cursor_le : draft.cursor ≤ draft.text.length
  recalled_lt : ∀ i, draft.recalled = some i → i < history.length
  at_cursor : Text.IsBoundary draft.text (Text.byteOffset draft.text draft.cursor)
  at_cursor_lt : draft.cursor < draft.text.length →
    Text.byteOffset draft.text draft.cursor < Text.byteSize draft.text
  before_cursor : Text.IsBoundary draft.text (Text.byteOffset draft.text (draft.cursor - 1))
  before_cursor_lt : 0 < draft.cursor →
    Text.byteOffset draft.text (draft.cursor - 1) < Text.byteSize draft.text

/-- The line that shows a buffer. -/
def ofBuffer (buffer : GapBuffer) (recalled : Option Nat) : Draft :=
  ⟨buffer.left ++ buffer.right, buffer.left.length, recalled⟩

section

variable {history : List Calculation} {draft : Draft} {buffer : GapBuffer}

/-! ## A line and its buffer -/

theorem Shows.exists_ofBuffer (h : draft.Shows history buffer) :
    ∃ recalled, draft = ofBuffer buffer recalled ∧ ∀ i, recalled = some i → i < history.length := by
  obtain ⟨text, cursor, recalled⟩ := draft
  obtain ⟨rfl, rfl, hrecalled⟩ := h
  exact ⟨recalled, rfl, hrecalled⟩

theorem shows_of_eq_ofBuffer {recalled : Option Nat}
    (hrecalled : ∀ i, recalled = some i → i < history.length) (h : draft = ofBuffer buffer recalled) :
    draft.Shows history buffer := by
  rw [h]
  exact ⟨rfl, rfl, hrecalled⟩

theorem empty_shows (history : List Calculation) : empty.Shows history .empty :=
  ⟨rfl, rfl, fun i h => absurd h (Option.some_ne_none i).symm⟩

theorem copyOf_shows {entry : Calculation} {i : Nat} (h : history[i]? = some entry) :
    (copyOf entry i).Shows history (.holding entry.expression.toList) := by
  refine ⟨(List.append_nil _).symm, rfl, fun j hj => ?_⟩
  obtain rfl : i = j := Option.some.inj hj
  exact (List.getElem?_eq_some_iff.mp h).1

/-- A line shows one buffer only. -/
theorem Shows.buffer_eq (h : draft.Shows history buffer) : buffer = ⟨draft.left, draft.right⟩ := by
  rw [left, right, h.text, h.cursor, List.take_left, List.drop_left]

theorem Shows.inRange (h : draft.Shows history buffer) : draft.InRange history := by
  have hle : draft.cursor ≤ draft.text.length := by
    rw [h.text, h.cursor, List.length_append]
    exact Nat.le_add_right _ _
  exact
    { cursor_le := hle
      recalled_lt := h.recalled
      at_cursor := Text.isBoundary_byteOffset _ _
      at_cursor_lt := Text.byteOffset_lt
      before_cursor := Text.isBoundary_byteOffset _ _
      before_cursor_lt := fun hpos => Text.byteOffset_lt (by omega) }

/-! ## Editing and moving -/

theorem insertIdx_append_length {α : Type} (left right : List α) (a : α) :
    (left ++ right).insertIdx left.length a = left ++ a :: right := by
  induction left with
  | nil => rfl
  | cons b left ih =>
      rw [List.cons_append, List.length_cons, List.insertIdx_succ_cons, ih, List.cons_append]

section

variable (left right : List Char) (recalled : Option Nat)

theorem insert_ofBuffer (c : Char) :
    (ofBuffer ⟨left, right⟩ recalled).insert c = ofBuffer ⟨left ++ [c], right⟩ recalled := by
  simp [ofBuffer, insert, insertIdx_append_length]

theorem eraseLeft_ofBuffer :
    (ofBuffer ⟨left, right⟩ recalled).eraseLeft = ofBuffer ⟨left.dropLast, right⟩ recalled := by
  -- the cursor counts the left side, so the guard asks whether that is empty
  rcases List.eq_nil_or_concat left with rfl | ⟨left, c, rfl⟩
  · rfl
  · simp [ofBuffer, eraseLeft, List.eraseIdx_append_of_length_le]

theorem eraseRight_ofBuffer :
    (ofBuffer ⟨left, right⟩ recalled).eraseRight = ofBuffer ⟨left, right.tail⟩ recalled := by
  cases right with
  | nil => simp [ofBuffer, eraseRight]
  | cons c right => simp [ofBuffer, eraseRight, List.eraseIdx_append_of_length_le]

theorem goLeft_ofBuffer :
    (ofBuffer ⟨left, right⟩ recalled).goLeft =
      ofBuffer (GapBuffer.goLeft ⟨left, right⟩) recalled := by
  rcases List.eq_nil_or_concat left with rfl | ⟨left, c, rfl⟩
  · rfl
  · simp [ofBuffer, goLeft, GapBuffer.goLeft]

theorem goRight_ofBuffer :
    (ofBuffer ⟨left, right⟩ recalled).goRight =
      ofBuffer (GapBuffer.goRight ⟨left, right⟩) recalled := by
  cases right with
  | nil => simp [ofBuffer, goRight, GapBuffer.goRight]
  | cons c right => simp [ofBuffer, goRight, GapBuffer.goRight]

theorem goStart_ofBuffer :
    (ofBuffer ⟨left, right⟩ recalled).goStart = ofBuffer ⟨[], left ++ right⟩ recalled := rfl

theorem goEnd_ofBuffer :
    (ofBuffer ⟨left, right⟩ recalled).goEnd = ofBuffer ⟨left ++ right, []⟩ recalled := by
  simp [ofBuffer, goEnd]

end

/-! ## Calling back -/

/-- What is called back next exists unless there is nothing at all. -/
theorem olderIndex_lt (hhistory : history ≠ []) (recalled : Option Nat) :
    olderIndex history recalled < history.length := by
  have hpos := List.length_pos_iff.mpr hhistory
  cases recalled with
  | none => exact hpos
  | some i =>
      show min (i + 1) (history.length - 1) < history.length
      omega

theorem Shows.older (h : draft.Shows history buffer) :
    ∃ after, (draft.older history).Shows history after ∧
      (history = [] ∧ after = buffer ∨
        ∃ entry ∈ history, after = .holding entry.expression.toList) := by
  simp only [Draft.older]
  cases hentry : history[olderIndex history draft.recalled]? with
  | some entry => exact ⟨_, copyOf_shows hentry, .inr ⟨entry, List.mem_of_getElem? hentry, rfl⟩⟩
  | none =>
      -- the index is clamped, so only an empty history lacks it
      refine ⟨buffer, h, .inl ⟨?_, rfl⟩⟩
      by_contra hhistory
      exact absurd (olderIndex_lt hhistory draft.recalled)
        (Nat.not_lt.mpr (List.getElem?_eq_none_iff.mp hentry))

/-- What is called back next exists, as what was called back last does. -/
theorem Shows.exists_newer (h : draft.Shows history buffer) {i : Nat}
    (hrecalled : draft.recalled = some (i + 1)) : ∃ entry, history[i]? = some entry :=
  ⟨_, List.getElem?_eq_getElem (Nat.lt_of_succ_lt (h.recalled (i + 1) hrecalled))⟩

theorem Shows.newer (h : draft.Shows history buffer) :
    ∃ after, (draft.newer history).Shows history after ∧
      (after = .empty ∨ ∃ entry ∈ history, after = .holding entry.expression.toList) := by
  unfold Draft.newer
  match hrecalled : draft.recalled with
  | none => exact ⟨.empty, empty_shows history, .inl rfl⟩
  | some 0 => exact ⟨.empty, empty_shows history, .inl rfl⟩
  | some (i + 1) =>
      -- here it matters that the number was kept while the text was edited
      obtain ⟨entry, hentry⟩ := h.exists_newer hrecalled
      simp only [hentry]
      exact ⟨_, copyOf_shows hentry, .inr ⟨entry, List.mem_of_getElem? hentry, rfl⟩⟩

/-! ## One key -/

theorem press_of_modifier {key : Key} (h : (key.control || key.alt) = true) :
    draft.press history key = draft := if_pos h

/-- **A key**: `press` does to a draft what `GapBuffer.Leads` does to the buffer that it shows. -/
theorem Shows.press (h : draft.Shows history buffer) (key : Key) :
    ∃ after, (draft.press history key).Shows history after ∧
      GapBuffer.Leads history key buffer after := by
  obtain ⟨code, control, alt⟩ := key
  by_cases hmodifier : (control || alt) = true
  · rw [press_of_modifier hmodifier]
    exact ⟨buffer, h, by rw [GapBuffer.Leads, if_pos hmodifier]⟩
  · obtain ⟨rfl, rfl⟩ : control = false ∧ alt = false := by simpa using hmodifier
    obtain ⟨left, right⟩ := buffer
    obtain ⟨recalled, rfl, hrecalled⟩ := h.exists_ofBuffer
    have hshows : ∀ {draft buffer}, draft = ofBuffer buffer recalled →
        draft.Shows history buffer := shows_of_eq_ofBuffer hrecalled
    cases code with
    | character c => exact ⟨_, hshows (insert_ofBuffer left right recalled c), rfl⟩
    | backspace => exact ⟨_, hshows (eraseLeft_ofBuffer left right recalled), rfl⟩
    | delete => exact ⟨_, hshows (eraseRight_ofBuffer left right recalled), rfl⟩
    | left => exact ⟨_, hshows (goLeft_ofBuffer left right recalled), rfl⟩
    | right => exact ⟨_, hshows (goRight_ofBuffer left right recalled), rfl⟩
    | home => exact ⟨_, hshows (goStart_ofBuffer left right recalled), rfl⟩
    | finish => exact ⟨_, hshows (goEnd_ofBuffer left right recalled), rfl⟩
    | up => exact h.older
    | down => exact h.newer
    | function | enter | escape | insert | tab | pageUp | pageDown => exact ⟨_, h, rfl⟩

/-! ## A line in bytes -/

/-- Puts a character before the cursor, at its offset. -/
def insertBytes? (draft : Draft) (c : Char) : Option Draft :=
  (Text.insertAtByte? draft.text (Text.byteOffset draft.text draft.cursor) c).map
    fun text => { draft with text := text, cursor := draft.cursor + 1 }

/-- Removes the character before the cursor, from its offset on. -/
def eraseLeftBytes? (draft : Draft) : Option Draft :=
  if 0 < draft.cursor then
    (Text.removeAtByte? draft.text (Text.byteOffset draft.text (draft.cursor - 1))).map
      fun text => { draft with text := text, cursor := draft.cursor - 1 }
  else some draft

/-- Removes the character behind the cursor, from its offset on. -/
def eraseRightBytes? (draft : Draft) : Option Draft :=
  if draft.cursor < draft.text.length then
    (Text.removeAtByte? draft.text (Text.byteOffset draft.text draft.cursor)).map
      fun text => { draft with text := text }
  else some draft

/-- Calls back the next newer expression, which has to exist. -/
def newer? (history : List Calculation) (draft : Draft) : Option Draft :=
  match draft.recalled with
  | some (i + 1) => history[i]?.map fun entry => copyOf entry i
  | _ => some empty

/-- What a key does to a line that is stored in bytes: nothing if it edits at an offset that the text does
not have, or calls back an entry that the history does not have. -/
def pressBytes? (history : List Calculation) (draft : Draft) (key : Key) : Option Draft :=
  if key.control || key.alt then some draft
  else
    match key.code with
    | .character c => draft.insertBytes? c
    | .backspace => draft.eraseLeftBytes?
    | .delete => draft.eraseRightBytes?
    | .down => draft.newer? history
    | _ => some (draft.press history key)

section

variable (left right : List Char) (recalled : Option Nat)

theorem insertBytes?_ofBuffer (c : Char) :
    (ofBuffer ⟨left, right⟩ recalled).insertBytes? c =
      some ((ofBuffer ⟨left, right⟩ recalled).insert c) := by
  simp [insertBytes?, insert, ofBuffer, Text.insertAtByte?_byteOffset, insertIdx_append_length]

theorem eraseLeftBytes?_ofBuffer :
    (ofBuffer ⟨left, right⟩ recalled).eraseLeftBytes? =
      some (ofBuffer ⟨left, right⟩ recalled).eraseLeft := by
  rcases List.eq_nil_or_concat left with rfl | ⟨left, c, rfl⟩
  · rfl
  · simp [eraseLeftBytes?, eraseLeft, ofBuffer, Text.removeAtByte?_byteOffset,
      List.eraseIdx_append_of_length_le]

theorem eraseRightBytes?_ofBuffer :
    (ofBuffer ⟨left, right⟩ recalled).eraseRightBytes? =
      some (ofBuffer ⟨left, right⟩ recalled).eraseRight := by
  cases right with
  | nil => simp [eraseRightBytes?, eraseRight, ofBuffer]
  | cons c right =>
      simp [eraseRightBytes?, eraseRight, ofBuffer, Text.removeAtByte?_byteOffset,
        List.eraseIdx_append_of_length_le]

end

theorem Shows.newer?_eq (h : draft.Shows history buffer) :
    draft.newer? history = some (draft.newer history) := by
  unfold newer? Draft.newer
  match hrecalled : draft.recalled with
  | none | some 0 => rfl
  | some (i + 1) =>
      obtain ⟨entry, hentry⟩ := h.exists_newer hrecalled
      simp only [hentry]
      rfl

/-- **A key does not fail** on a draft that is stored in bytes: `pressBytes?` does what `press` does. -/
theorem Shows.pressBytes?_eq (h : draft.Shows history buffer) (key : Key) :
    draft.pressBytes? history key = some (draft.press history key) := by
  obtain ⟨code, control, alt⟩ := key
  by_cases hmodifier : (control || alt) = true
  · rw [press_of_modifier hmodifier, pressBytes?, if_pos hmodifier]
  · obtain ⟨rfl, rfl⟩ : control = false ∧ alt = false := by simpa using hmodifier
    obtain ⟨left, right⟩ := buffer
    obtain ⟨recalled, rfl, -⟩ := h.exists_ofBuffer
    cases code with
    | character c => exact insertBytes?_ofBuffer left right recalled c
    | backspace => exact eraseLeftBytes?_ofBuffer left right recalled
    | delete => exact eraseRightBytes?_ofBuffer left right recalled
    | down => exact h.newer?_eq
    | _ => rfl

/-! ## All keys of a line -/

/-- A line after some keys. -/
def run (history : List Calculation) (draft : Draft) (keys : List Key) : Draft :=
  keys.foldl (press history) draft

/-- **All keys of a line**: `run` does to a draft what `GapBuffer.Run` does to the buffer that it shows. -/
theorem Shows.run (h : draft.Shows history buffer) (keys : List Key) :
    ∃ after, (draft.run history keys).Shows history after ∧
      GapBuffer.Run history keys buffer after := by
  induction keys generalizing draft buffer with
  | nil => exact ⟨buffer, h, .nil⟩
  | cons key keys ih =>
      obtain ⟨next, hnext, hleads⟩ := h.press key
      obtain ⟨after, hafter, hrun⟩ := ih hnext
      exact ⟨after, hafter, .cons hleads hrun⟩

end

end Draft

/-! ## The console -/

/-- What is written shows a buffer on a row: both texts behind the prompt, and the terminal's cursor between
them, as long as there are columns. -/
def Writes (row : Nat) (output : String) (buffer : GapBuffer) : Prop :=
  buffer.left.length ≤ 65522 →
    output = goTo 1 row ++ clearLine ++ prompt ++ String.ofList (buffer.left ++ buffer.right) ++
      goTo (13 + buffer.left.length) row

theorem Draft.Shows.redraw {history : List Calculation} {draft : Draft} {buffer : GapBuffer}
    (h : draft.Shows history buffer) (row : Nat) : Writes row (redraw row draft) buffer := by
  intro hlength
  have hleft : draft.left = buffer.left := by rw [h.buffer_eq]
  have hprompt : prompt.length = 12 := rfl
  have hlimit : columnLimit = 65536 := rfl
  have hcolumn : (prompt.length + 1 + draft.left.length) % columnLimit =
      13 + buffer.left.length := by
    rw [hleft, hprompt, hlimit]
    omega
  rw [Calculator.redraw, hcolumn, h.text]

namespace Console

/-- Whether a line goes on after a key. -/
def editsLine (key : Key) : Bool := !finishesLine key && !endsDialogue key

theorem press_of_editsLine {key : Key} (h : editsLine key = true) (session : Session)
    (draft : Draft) (rows : Nat → Nat) (finished : Nat) (stamp : Stamp) :
    (⟨session, draft, rows, finished⟩ : Console).press stamp key =
      ⟨redraw (rows finished) (draft.press session.history key),
        some ⟨session, draft.press session.history key, rows, finished⟩⟩ := by
  obtain ⟨hfinishes, hends⟩ : finishesLine key = false ∧ endsDialogue key = false := by
    simpa [editsLine] using h
  rw [press, if_neg (by simp [hfinishes]), if_neg (by simp [hends])]
  rfl

/-- As long as a line goes on, every key is read, and the session stays as it is. -/
theorem read_of_editsLine (session : Session) (draft : Draft) (rows : Nat → Nat) (finished : Nat)
    (keys : List (Stamp × Key)) (h : ∀ key ∈ keys, editsLine key.2 = true) :
    let reading := (⟨session, draft, rows, finished⟩ : Console).read keys
    reading.waiting =
        some ⟨session, draft.run session.history (keys.map Prod.snd), rows, finished⟩ ∧
      reading.unread = [] := by
  induction keys generalizing draft with
  | nil => exact ⟨rfl, rfl⟩
  | cons key keys ih =>
      obtain ⟨stamp, key⟩ := key
      obtain ⟨hkey, hkeys⟩ := List.forall_mem_cons.mp h
      simp only [read, press_of_editsLine hkey]
      exact ih _ hkeys

/-- **The line is two texts.** Whatever the session, the row and the number of lines before it, and whatever
`keys` have been pressed since the line began: they have led from `GapBuffer.empty` to a buffer that the draft
shows (`Draft.Shows`), and the next key leads it on (`GapBuffer.Leads`) as `Draft.press` does the draft. On the
way nothing is looked up that does not exist (`Draft.InRange`), so that `Draft.pressBytes?` succeeds, and what
`redraw` writes puts the terminal's cursor where the gap is. -/
theorem editing_refines_buffer (session : Session) (rows : Nat → Nat) (finished : Nat)
    (keys : List (Stamp × Key)) (hkeys : ∀ key ∈ keys, editsLine key.2 = true) (stamp : Stamp) (key : Key)
    (hkey : editsLine key = true) :
    let history := session.history
    let row := rows finished
    let reading := (⟨session, .empty, rows, finished⟩ : Console).read keys
    let draft := Draft.empty.run history (keys.map Prod.snd)
    let next := draft.press history key
    (reading.waiting = some ⟨session, draft, rows, finished⟩ ∧ reading.unread = []) ∧
    (⟨session, draft, rows, finished⟩ : Console).press stamp key =
      ⟨redraw row next, some ⟨session, next, rows, finished⟩⟩ ∧
    (draft.InRange history ∧ next.InRange history ∧ draft.pressBytes? history key = some next) ∧
    ∃ before after : GapBuffer,
      (draft.Shows history before ∧ next.Shows history after) ∧
      GapBuffer.Run history (keys.map Prod.snd) .empty before ∧
      GapBuffer.Leads history key before after ∧
      Writes row (redraw row draft) before ∧ Writes row (redraw row next) after := by
  intro history row reading draft next
  obtain ⟨before, hbefore, hrun⟩ := (Draft.empty_shows history).run (keys.map Prod.snd)
  obtain ⟨after, hafter, hleads⟩ := hbefore.press key
  exact ⟨read_of_editsLine session .empty rows finished keys hkeys,
    press_of_editsLine hkey session draft rows finished stamp,
    ⟨hbefore.inRange, hafter.inRange, hbefore.pressBytes?_eq key⟩,
    before, after, ⟨hbefore, hafter⟩, hrun, hleads, hbefore.redraw row, hafter.redraw row⟩

/-- A product is called back on the eighth row and its sign, which takes two bytes, is removed. -/
theorem editing_refines_buffer_product :
    let stamp : Stamp := ⟨"a", ⟨⟨2024, 1, 2⟩, ⟨3, 4, 5, 6⟩⟩⟩
    let session := { Session.empty with history := [⟨"a", "6×7", "42", stamp.timestamp⟩] }
    let rows := fun line => line + 7
    let keys := [(stamp, Key.plain .up), (stamp, Key.plain .left)]
    let key := Key.plain .backspace
    let draft : Draft := ⟨['6', '×', '7'], 2, some 0⟩
    let next : Draft := ⟨['6', '7'], 1, some 0⟩
    let before : GapBuffer := ⟨['6', '×'], ['7']⟩
    let after : GapBuffer := ⟨['6'], ['7']⟩
    ((∀ key ∈ keys, editsLine key.2 = true) ∧ editsLine key = true) ∧
    ((⟨session, .empty, rows, 1⟩ : Console).read keys).waiting = some ⟨session, draft, rows, 1⟩ ∧
    draft.pressBytes? session.history key = some next ∧
    draft.Shows session.history before ∧ next.Shows session.history after ∧
    GapBuffer.Run session.history (keys.map Prod.snd) .empty before ∧
    GapBuffer.Leads session.history key before after ∧ Writes 8 (redraw 8 next) after := by
  intro stamp session rows keys key draft next before after
  have hkeys : ∀ key ∈ keys, editsLine key.2 = true := by decide
  have hkey : editsLine key = true := by decide
  have hdraft : Draft.empty.run session.history (keys.map Prod.snd) = draft := by decide
  have hnext : draft.press session.history key = next := by decide
  have h := editing_refines_buffer session rows 1 keys hkeys stamp key hkey
  simp only [hdraft, hnext] at h
  obtain ⟨⟨hwaiting, -⟩, -, ⟨-, -, hbytes⟩, before', after', ⟨hbefore, hafter⟩, hrun, hleads, -,
    hwrites⟩ := h
  obtain rfl : before' = before := hbefore.buffer_eq
  obtain rfl : after' = after := hafter.buffer_eq
  exact ⟨⟨hkeys, hkey⟩, hwaiting, hbytes, hbefore, hafter, hrun, hleads, hwrites⟩

end Console

end Calculator
