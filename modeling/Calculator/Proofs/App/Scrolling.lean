import Calculator.Proofs.App.Desk
import Calculator.Screen.Layout

/-!
# `Proofs.App.Scrolling` — turning the page of help

Four keys turn the page, by a line or by ten. What they change is a number, and it stays between zero and
the greatest number there is however long they are held. The page is drawn from a row, and there are fewer
rows to draw from than numbers: counting starts again at `Screen.scrollLimit`. So the number and the row
agree below that limit and nowhere else, and where counting starts again the page turns the wrong way.

## Contents

* `ScrollKey`, `ScrollKey.lines`, `ScrollKey.scroll` — the four keys and where they lead
* `ScrollPress` — one of them pressed
* `Screen.pageFrom` — the page from a row
* `Desk.HelpWithin.run` — the number stays in its range
* `Screen.scrolledRows_le_iff` — how rows follow numbers
* `App.help_scrolled` — any run of the keys, at any time the page is open
-/

namespace Calculator

/-- A key that turns the page of help. -/
inductive ScrollKey where
  | up
  | down
  | pageUp
  | pageDown
deriving Repr, DecidableEq

namespace ScrollKey

/-- The key on the keyboard. -/
def code : ScrollKey → KeyCode
  | up => .up
  | down => .down
  | pageUp => .pageUp
  | pageDown => .pageDown

/-- How far down the key leads. -/
def lines : ScrollKey → Int
  | up => -1
  | down => 1
  | pageUp => -App.pageLines
  | pageDown => App.pageLines

/-- Where the key leads from a line, without going beyond either end. -/
def scroll (line : Nat) (key : ScrollKey) : Nat := (min (line + key.lines) App.greatestScroll).toNat

end ScrollKey

/-- A key that turns the page of help and is pressed at some time, with or without others held. -/
structure ScrollPress where
  stamp : Stamp
  key : ScrollKey
  control : Bool
  alt : Bool

/-- What happens to the calculator. -/
def ScrollPress.event (press : ScrollPress) : App.Event :=
  .key press.stamp ⟨press.key.code, press.control, press.alt⟩

/-! ## The range of the number -/

namespace Purpose

variable {stamp : Stamp} {key : Key} {help : Option Nat}

/-- The page is opened at its top. -/
theorem inEither_turn (h : inEither key = .turn help) : help = some 0 := by
  obtain ⟨code, control, alt⟩ := key
  unfold inEither at h
  cases control with
  | true =>
      simp only at h
      split at h <;> cases h
  | false =>
      cases code with
      | function number =>
          simp only at h
          split at h <;> cases h
          rfl
      | _ => cases h

theorem inExpression_turn (h : inExpression stamp key = .turn help) : help = some 0 := by
  obtain ⟨code, control, alt⟩ := key
  unfold inExpression at h
  cases control with
  | true =>
      simp only at h
      split at h
      case h_5 => exact inEither_turn h
      all_goals cases h
  | false =>
      cases code with
      | character c => cases h
      | enter => cases h
      | backspace => cases h
      | escape => cases h
      | _ => exact inEither_turn h

theorem inProblem_turn (h : inProblem key = .turn help) : help = some 0 := by
  obtain ⟨code, control, alt⟩ := key
  unfold inProblem at h
  cases control with
  | true =>
      simp only at h
      split at h
      case h_5 => exact inEither_turn h
      all_goals cases h
  | false =>
      cases code with
      | character c => cases h
      | backspace => cases h
      | escape => cases h
      | _ => exact inEither_turn h

/-- An open page is turned within the range, or closed. -/
theorem inHelp_turn {scroll next : Nat} {code : KeyCode} (hscroll : scroll ≤ App.greatestScroll)
    (h : inHelp scroll code = .turn (some next)) : next ≤ App.greatestScroll := by
  unfold inHelp at h
  split at h
  case h_1 => exact Option.some.inj (Purpose.turn.inj h) ▸ min_le_right _ _
  case h_2 => exact Option.some.inj (Purpose.turn.inj h) ▸ (Nat.sub_le _ _).trans hscroll
  case h_3 => exact Option.some.inj (Purpose.turn.inj h) ▸ min_le_right _ _
  case h_4 => exact Option.some.inj (Purpose.turn.inj h) ▸ (Nat.sub_le _ _).trans hscroll
  all_goals simp at h

end Purpose

namespace Desk

/-- The page is scrolled by a number in the range, if it is open. -/
def HelpWithin (desk : Desk) : Prop := ∀ scroll, desk.help = some scroll → scroll ≤ App.greatestScroll

variable {desk : Desk} {event : App.Event} {next : Nat}

theorem HelpWithin.of_turn (h : desk.HelpWithin) (hturn : desk.purpose event = .turn (some next)) :
    next ≤ App.greatestScroll := by
  have htop : some next = some 0 → next ≤ App.greatestScroll :=
    fun hzero => Option.some.inj hzero ▸ Nat.zero_le _
  cases event with
  | key stamp key =>
      cases hhelp : desk.help with
      | some scroll =>
          rw [purpose_of_help hhelp] at hturn
          exact Purpose.inHelp_turn (h scroll hhelp) hturn
      | none =>
          cases hinput : desk.input with
          | expression =>
              rw [purpose_of_expression hhelp hinput] at hturn
              exact htop (Purpose.inExpression_turn hturn)
          | problem =>
              rw [purpose_of_problem hhelp hinput] at hturn
              exact htop (Purpose.inProblem_turn hturn)
  | token text =>
      simp only [purpose] at hturn
      split at hturn <;> contradiction
  | _ => simp [purpose] at hturn

/-- No event leads out of the range. -/
theorem HelpWithin.perform (h : desk.HelpWithin) (event : App.Event) :
    (desk.perform event).HelpWithin := by
  unfold Desk.perform
  cases hpurpose : desk.purpose event with
  | turn help =>
      rintro next rfl
      exact h.of_turn hpurpose
  | walk direction =>
      simp only [serve]
      cases desk.reached? direction with
      | none => exact h
      | some found => exact h
  | _ => exact h

theorem HelpWithin.run (h : desk.HelpWithin) (events : List App.Event) :
    (desk.run events).HelpWithin := by
  induction events generalizing desk with
  | nil => exact h
  | cons event events ih => exact ih (h.perform event)

end Desk

/-! ## Rows -/

namespace Screen

/-- The page of help from one of its rows. -/
def pageFrom (row : Nat) (area : Area) (picture : Picture) : Picture :=
  picture.draw fun canvas =>
    (canvas.frame area .double .center " SciCalc Help ".toList).paragraph area.inner (.flow true) .left
      row (helpText.map Line.ofText)

theorem helpPane_eq (scroll : Nat) (area : Area) (picture : Picture) :
    helpPane scroll area picture = pageFrom (scrolledRows scroll) area picture := rfl

theorem scrolledRows_eq_iff {line : Nat} : scrolledRows line = line ↔ line < scrollLimit :=
  Nat.mod_eq_iff_lt (by decide)

/-- A number that is a little greater has a later row unless counting starts again in between. -/
theorem scrolledRows_le_iff {line next : Nat} (hle : line ≤ next) (hnear : next < line + scrollLimit) :
    scrolledRows line ≤ scrolledRows next ↔ line / scrollLimit = next / scrollLimit := by
  have hlimit : scrollLimit = 65536 := rfl
  unfold scrolledRows
  rw [hlimit] at hnear ⊢
  omega

end Screen

/-! ## The keys -/

namespace ScrollKey

variable {line : Nat} {key : ScrollKey}

theorem scroll_up (hline : line ≤ App.greatestScroll) : up.scroll line = line - 1 := by
  simp only [scroll, lines]
  omega

theorem scroll_down (line : Nat) : down.scroll line = min (line + 1) App.greatestScroll := by
  simp only [scroll, lines]
  omega

theorem scroll_pageUp (hline : line ≤ App.greatestScroll) : pageUp.scroll line = line - App.pageLines := by
  simp only [scroll, lines]
  omega

theorem scroll_pageDown (line : Nat) :
    pageDown.scroll line = min (line + App.pageLines) App.greatestScroll := by
  simp only [scroll, lines]
  omega

theorem scroll_le (line : Nat) (key : ScrollKey) : key.scroll line ≤ App.greatestScroll := by
  unfold scroll
  omega

/-- A key leads a page further at most. -/
theorem scroll_le_add (line : Nat) (key : ScrollKey) : key.scroll line ≤ line + App.pageLines := by
  have hlines : key.lines ≤ App.pageLines := by cases key <;> decide
  unfold scroll
  omega

/-- A key that leads down does not lead up, and it leads a page further at most. -/
theorem scroll_of_pos (hline : line ≤ App.greatestScroll)
    (hdown : 0 < key.lines) : line ≤ key.scroll line ∧ key.scroll line < line + Screen.scrollLimit := by
  have hfew : App.pageLines < Screen.scrollLimit := by decide
  have hle := scroll_le_add line key
  refine ⟨?_, by omega⟩
  unfold scroll
  omega

/-- A key that leads up does not lead down, and it leads back a page at most. -/
theorem scroll_of_neg (hline : line ≤ App.greatestScroll)
    (hup : key.lines < 0) : key.scroll line ≤ line ∧ line < key.scroll line + Screen.scrollLimit := by
  have hfew : App.pageLines < Screen.scrollLimit := by decide
  have hlines : -(App.pageLines : Int) ≤ key.lines := by cases key <;> decide
  unfold scroll
  omega

/-- Some keys lead as many pages further at most. -/
theorem foldl_scroll_le_add (line : Nat) (keys : List ScrollKey) :
    keys.foldl scroll line ≤ line + App.pageLines * keys.length := by
  induction keys generalizing line with
  | nil => exact Nat.le_refl line
  | cons key keys ih =>
      have hle := scroll_le_add line key
      calc (key :: keys).foldl scroll line
          ≤ key.scroll line + App.pageLines * keys.length := ih (key.scroll line)
        _ ≤ line + App.pageLines * (key :: keys).length := by
            rw [List.length_cons, Nat.mul_succ]
            omega

/-- A key that is held leads a page further each time, until there are no more numbers. -/
theorem foldl_scroll_pageDown (line times : Nat) (h : line + App.pageLines * times ≤ App.greatestScroll) :
    (List.replicate times pageDown).foldl scroll line = line + App.pageLines * times := by
  induction times generalizing line with
  | zero => rfl
  | succ times ih =>
      rw [Nat.mul_succ] at h ⊢
      have hone : pageDown.scroll line = line + App.pageLines := by
        rw [scroll_pageDown, min_eq_left (by omega)]
      rw [List.replicate_succ, List.foldl_cons, hone, ih _ (by omega)]
      omega

end ScrollKey

namespace App

variable {app : App} {line : Nat}

/-- **One key** moves the line of `help` by `ScrollKey.scroll` and does nothing else. -/
theorem perform_scroll (hopen : app.help = some line) (hline : line ≤ greatestScroll)
    (press : ScrollPress) :
    app.perform press.event = { app with help := some (press.key.scroll line) } := by
  obtain ⟨stamp, key, control, alt⟩ := press
  have hpress : app.perform (ScrollPress.event ⟨stamp, key, control, alt⟩) =
      app.pressInHelp line key.code := by
    show app.press stamp ⟨key.code, control, alt⟩ = _
    unfold App.press
    rw [hopen]
  rw [hpress]
  cases key with
  | up => rw [ScrollKey.scroll_up hline]; rfl
  | down => rw [ScrollKey.scroll_down]; rfl
  | pageUp => rw [ScrollKey.scroll_pageUp hline]; rfl
  | pageDown => rw [ScrollKey.scroll_pageDown]; rfl

/-- **Any number of keys** move it one after the other, and it is never beyond `greatestScroll`. -/
theorem run_scroll (hopen : app.help = some line) (hline : line ≤ greatestScroll)
    (presses : List ScrollPress) :
    let last := (presses.map ScrollPress.key).foldl ScrollKey.scroll line
    app.run (presses.map ScrollPress.event) = { app with help := some last } ∧
      last ≤ greatestScroll := by
  induction presses generalizing app line with
  | nil =>
      refine ⟨?_, hline⟩
      show app = { app with help := some line }
      rw [← hopen]
  | cons press presses ih =>
      have hstep := perform_scroll hopen hline press
      obtain ⟨hrest, hlast⟩ := ih (congrArg App.help hstep) (ScrollKey.scroll_le line press.key)
      refine ⟨hrest.trans ?_, hlast⟩
      rw [hstep]
      rfl

theorem helpWithin_start (session : Session) : (Desk.start session).HelpWithin :=
  fun _ h => absurd h (Option.some_ne_none _).symm

/-- **The page of help as it is turned.** After any events that leave `help` open at a line, any run of the
four keys moves that line by `ScrollKey.scroll`, one key after the other and not beyond `greatestScroll`, and
does nothing else. The `picture` is then the page from the row `Screen.scrolledRows`. This is the line itself
if and only if the line is below `Screen.scrollLimit`, as it is as long as fewer lines have been gone through.
A key down draws the page no closer to its top and a key up no further from it if and only if `scrolledRows`
does not begin anew between the two lines. -/
theorem help_scrolled (session : Session) (messenger : Option Messenger) (events : List Event)
    (line : Nat) (hopen : ((start session messenger).run events).help = some line)
    (presses : List ScrollPress) :
    let now := (start session messenger).run events
    let later := now.run (presses.map ScrollPress.event)
    let last := (presses.map ScrollPress.key).foldl ScrollKey.scroll line
    later = { now with help := some last } ∧ last ≤ greatestScroll ∧
    (∀ width height, later.picture width height =
      Screen.pageFrom (Screen.scrolledRows last) ⟨0, 0, width, height⟩ (Screen.Picture.blank width height)) ∧
    (Screen.scrolledRows last = last ↔ last < Screen.scrollLimit) ∧
    (line + pageLines * presses.length < Screen.scrollLimit → Screen.scrolledRows last = last) ∧
    ∀ key : ScrollKey, let next := key.scroll last
      (0 < key.lines → (Screen.scrolledRows last ≤ Screen.scrolledRows next ↔
        last / Screen.scrollLimit = next / Screen.scrollLimit)) ∧
      (key.lines < 0 → (Screen.scrolledRows next ≤ Screen.scrolledRows last ↔
        next / Screen.scrollLimit = last / Screen.scrollLimit)) := by
  intro now later last
  have hwithin : now.desk.HelpWithin := by
    rw [show now.desk = (Desk.start session).run events from desk_run (start session messenger) events]
    exact (helpWithin_start session).run events
  obtain ⟨hlater, hlast⟩ := run_scroll hopen (hwithin line hopen) presses
  refine ⟨hlater, hlast, fun width height => ?_, Screen.scrolledRows_eq_iff, fun hroom => ?_,
    fun key => ⟨fun hdown => ?_, fun hup => ?_⟩⟩
  · show (now.run (presses.map ScrollPress.event)).picture width height = _
    rw [hlater]
    exact Screen.helpPane_eq last _ _
  · have hle := ScrollKey.foldl_scroll_le_add line (presses.map ScrollPress.key)
    rw [List.length_map] at hle
    exact Screen.scrolledRows_eq_iff.mpr (Nat.lt_of_le_of_lt hle hroom)
  · obtain ⟨hle, hnear⟩ := ScrollKey.scroll_of_pos hlast hdown
    exact Screen.scrolledRows_le_iff hle hnear
  · obtain ⟨hle, hnear⟩ := ScrollKey.scroll_of_neg hlast hup
    exact Screen.scrolledRows_le_iff hle hnear

/-- The page is turned by its keys up to row 65530. One key more, and it is drawn from the fourth. -/
theorem help_scrolled_past_limit :
    let stamp : Stamp := ⟨"", ⟨2024, 1, 2⟩, ⟨3, 4, 5, 6⟩⟩
    let opened := (start .empty none).run [.key stamp (.plain (.function 1))]
    let presses : List ScrollPress := List.replicate 6553 ⟨stamp, .pageDown, false, false⟩
    let later := opened.run (presses.map ScrollPress.event)
    opened.help = some 0 ∧ later.help = some 65530 ∧
      ¬Screen.scrolledRows 65530 ≤ Screen.scrolledRows (ScrollKey.pageDown.scroll 65530) := by
  intro stamp opened presses later
  have hlast : (presses.map ScrollPress.key).foldl ScrollKey.scroll 0 = 65530 := by
    rw [List.map_replicate]
    exact ScrollKey.foldl_scroll_pageDown 0 6553 (by decide)
  -- how many keys there are does not matter any more
  clear_value presses
  obtain ⟨hlater, -, -, -, -, hnext⟩ :=
    help_scrolled .empty none [.key stamp (.plain (.function 1))] 0 rfl presses
  rw [hlast] at hlater hnext
  refine ⟨rfl, congrArg App.help hlater, ?_⟩
  rw [(hnext .pageDown).1 (by decide)]
  decide +kernel

end App

end Calculator
