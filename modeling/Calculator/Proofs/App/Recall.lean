import Calculator.Proofs.App.Undisturbed
import Mathlib.Data.List.Nodup

/-!
# `Proofs.App.Recall` — the walk through the history

The walk stands at a place in the history, and what it shows is looked up by the name of the entry at
that place. Two things have to hold for this to make sense. The place must be one of the history, also
after entries were added in front and dropped at the back; it is, because the walk ends with every
calculation and nothing else moves an entry. And no other entry may have the name; none does, if names
that are given away are new. Then the arrow keys walk up and down between the two ends of the history,
and whatever place they come to, the entry of that place is shown.

## Contents

* `Arrow`, `Arrow.move` — the arrow keys, and where they lead
* `Desk.Placed`, `Desk.Placed.run` — the walk stands in the history
* `Session.Named`, `Desk.named_run` — no two entries share a name
* `Session.Shows`, `Session.Named.select` — an entry is recalled by its name
* `Desk.Walking`, `Desk.Walking.press` — what one arrow key does to a walk
* `App.run_recalls` — recall in any run
-/

namespace Calculator

/-! ## Arrow keys -/

/-- The keys for the walk: up to a newer entry, down to an older one. -/
inductive Arrow where
  | up
  | down
deriving Repr, DecidableEq

namespace Arrow

/-- The key by itself. -/
def code : Arrow → KeyCode
  | .up => .up
  | .down => .down

/-- The direction in which an arrow leads. -/
def direction : Arrow → Int
  | .up => -1
  | .down => 1

/-- The place after an arrow key, in a history with so many entries: downwards from outside to the newest
entry and then to older ones as far as there are any, upwards to newer ones and never outside. -/
def move (length : Nat) : Arrow → Option Nat → Option Nat
  | .down, none => some 0
  | .down, some i => some (min (i + 1) (length - 1))
  | .up, none => none
  | .up, some i => some (i - 1)

end Arrow

/-- An arrow key that is pressed, with the stamp that any key has. -/
structure ArrowPress where
  stamp : Stamp
  arrow : Arrow
  alt : Bool

/-- What happens to the calculator then. -/
def ArrowPress.event (press : ArrowPress) : App.Event :=
  .key press.stamp ⟨press.arrow.code, false, press.alt⟩

section

variable {length i j : Nat} {direction : Int} {recalled : Option Nat} {arrow : Arrow}

/-- A walk that begins in the history, or outside, does not leave it. -/
theorem App.walkTo?_lt (h : walkTo? length direction recalled = some j)
    (hplaced : ∀ i, recalled = some i → i < length) : j < length := by
  unfold walkTo? at h
  by_cases hempty : length = 0
  · rw [if_pos hempty] at h
    contradiction
  rw [if_neg hempty] at h
  cases recalled with
  | none =>
      by_cases hdown : 0 < direction
      · rw [if_pos hdown] at h
        obtain rfl := Option.some.inj h
        exact Nat.pos_of_ne_zero hempty
      · rw [if_neg hdown] at h
        contradiction
  | some i =>
      have hi : i < length := hplaced i rfl
      simp only at h
      split_ifs at h with hup hfirst
      · obtain rfl := Option.some.inj h
        omega
      · obtain rfl := Option.some.inj h
        omega

/-- An arrow key leads where the walk leads, and where that leads nowhere it stays. -/
theorem Arrow.move_eq (hlength : length ≠ 0) (arrow : Arrow) (recalled : Option Nat) :
    arrow.move length recalled =
      (App.walkTo? length arrow.direction recalled).or recalled := by
  unfold App.walkTo?
  rw [if_neg hlength]
  cases arrow with
  | up =>
      cases recalled with
      | none => rfl
      | some i =>
          cases i with
          | zero => rfl
          | succ i => rfl
  | down =>
      cases recalled with
      | none => rfl
      | some i => rfl

end

/-! ## The place of the walk -/

namespace Desk

/-- The walk stands in the history, or outside. -/
def Placed (desk : Desk) : Prop :=
  ∀ i, desk.recalled = some i → i < desk.session.history.length

section

variable {desk : Desk} {action : Session.Action} {direction : Int} {found : Nat × Calculation}

/-- Nothing that is walked to is missing. -/
theorem Placed.reached? (h : desk.Placed) (direction : Int) :
    (∃ found, desk.reached? direction = some found ∧
      App.walkTo? desk.session.history.length direction desk.recalled = some found.1 ∧
      desk.session.history[found.1]? = some found.2) ∨
    (desk.reached? direction = none ∧
      App.walkTo? desk.session.history.length direction desk.recalled = none) := by
  cases hwalk : App.walkTo? desk.session.history.length direction desk.recalled with
  | none =>
      right
      unfold Desk.reached?
      rw [hwalk]
      exact ⟨rfl, rfl⟩
  | some i =>
      left
      have hi : i < desk.session.history.length := App.walkTo?_lt hwalk h
      have hentry := List.getElem?_eq_getElem hi
      refine ⟨(i, desk.session.history[i]), ?_, rfl, hentry⟩
      unfold Desk.reached?
      rw [hwalk, Option.bind_some, hentry]
      rfl

theorem Placed.act (h : desk.Placed) (action : Session.Action) :
    (desk.serve (.act action)).Placed := by
  -- an action that moves entries ends the walk
  have hkept : desk.recalledAfter action = none ∨
      desk.recalledAfter action = desk.recalled ∧
        (desk.session.perform action).history = desk.session.history := by
    cases action with
    | append text => exact .inr ⟨rfl, rfl⟩
    | eraseLast => exact .inr ⟨rfl, Session.perform_history_of_none rfl⟩
    | clear => exact .inl rfl
    | evaluate stamp => exact .inl rfl
    | select id => exact .inr ⟨rfl, Session.perform_history_of_none rfl⟩
  intro i hi
  have hi' : desk.recalledAfter action = some i := hi
  show i < (desk.session.perform action).history.length
  rcases hkept with hended | ⟨hsame, hhistory⟩
  · rw [hended] at hi'
    contradiction
  · rw [hhistory]
    exact h i (hsame ▸ hi')

theorem Placed.walk (h : desk.Placed) (direction : Int) :
    (desk.serve (.walk direction)).Placed := by
  rcases h.reached? direction with ⟨found, hfound, -, hentry⟩ | ⟨hnone, -⟩
  · intro i hi
    simp only [serve, hfound] at hi ⊢
    obtain rfl := Option.some.inj hi
    rw [Session.perform_history_of_none rfl]
    exact (List.getElem?_eq_some_iff.mp hentry).1
  · simp only [serve, hnone]
    exact h

/-- **The walk stays in the history**: `Desk.perform` keeps `Placed`, whatever the event. -/
theorem Placed.perform (h : desk.Placed) (event : App.Event) : (desk.perform event).Placed := by
  unfold Desk.perform
  cases desk.purpose event with
  | act action => exact h.act action
  | walk direction => exact h.walk direction
  | edit edit => exact h
  | switch => exact h
  | turn help => exact h
  | quit => exact h
  | nothing => exact h

theorem Placed.run (h : desk.Placed) (events : List App.Event) : (desk.run events).Placed := by
  induction events generalizing desk with
  | nil => exact h
  | cons event events ih => exact ih (h.perform event)

theorem placed_start (session : Session) : (start session).Placed := fun _ h => nomatch h

end

end Desk

/-! ## Names -/

namespace Session

/-- No two entries of the history share a name. -/
def Named (session : Session) : Prop := (session.history.map Calculation.id).Nodup

/-- The session shows an entry: its expression and its result, as the result of a calculation. -/
structure Shows (session : Session) (entry : Calculation) : Prop where
  expression : session.expression = entry.expression
  result : session.result = entry.result
  mode : session.mode = .scalar

section

variable {session : Session} {action : Action} {entry : Calculation} {i : Nat}

theorem named_starting (limit : Nat) (domain : Interval) (steps : Nat) :
    (starting limit domain steps).Named := by
  show (([].take limit).map Calculation.id).Nodup
  rw [List.take_nil]
  exact List.nodup_nil

/-- A name that is given away is new, and so it stays the only one of its kind. -/
theorem Named.perform (h : session.Named) (action : Action)
    (hnew : ∀ id ∈ session.newId? action, ∀ entry ∈ session.history, entry.id ≠ id) :
    (session.perform action).Named := by
  unfold Named
  cases hsuccess : session.success? action with
  | none =>
      rw [perform_history_of_none hsuccess]
      exact h
  | some success =>
      cases action with
      | evaluate stamp =>
          show ((session.evaluate stamp).history.map Calculation.id).Nodup
          cases session.evaluation stamp with
          | nothing blank same => rwa [same]
          | graphed typed mentions eq => rwa [eq]
          | failed typed scalar value eq => rwa [eq]
          | recorded text typed scalar value eq =>
              have hid : session.newId? (.evaluate stamp) = some stamp.id :=
                newId?_of_number typed scalar value
              have hunused : stamp.id ∉ session.history.map Calculation.id := by
                intro hmem
                obtain ⟨entry, hentry, hsame⟩ := List.mem_map.mp hmem
                exact hnew stamp.id hid entry hentry hsame
              rw [eq]
              show (List.map Calculation.id (session.record _)).Nodup
              unfold record
              rw [List.map_take, List.map_cons]
              exact (List.nodup_cons.mpr ⟨hunused, h⟩).sublist (List.take_sublist _ _)
      | _ => exact absurd hsuccess (by simp [success?])

/-- By its name an entry is found, if no other entry has the name. -/
theorem Named.entry? (h : session.Named) (hentry : session.history[i]? = some entry) :
    session.entry? entry.id = some entry := by
  have hmem : entry ∈ session.history := List.mem_of_getElem? hentry
  have hfound : (session.entry? entry.id).isSome = true :=
    List.find?_isSome.mpr ⟨entry, hmem, beq_iff_eq.mpr rfl⟩
  obtain ⟨other, hother⟩ := Option.isSome_iff_exists.mp hfound
  have hid : other.id = entry.id := by simpa using List.find?_some hother
  have hsame : other = entry :=
    List.inj_on_of_nodup_map h (List.mem_of_find?_eq_some hother) hmem hid
  rw [hother, hsame]

/-- **An entry that is recalled is shown**: by its name `select` finds that entry, and `restore` shows it. -/
theorem Named.select (h : session.Named) (hentry : session.history[i]? = some entry) :
    session.select entry.id = session.restore entry := by
  unfold Session.select
  rw [h.entry? hentry]

end

end Session

namespace Desk

instance decidableFresh : (desk : Desk) → (events : List App.Event) → Decidable (desk.Fresh events)
  | _, [] => inferInstanceAs (Decidable True)
  | desk, event :: events =>
    have := decidableFresh (desk.perform event) events
    inferInstanceAs (Decidable (desk.NewName event ∧ (desk.perform event).Fresh events))

section

variable {desk : Desk} {events : List App.Event}

/-- Names stay apart at the desk. -/
theorem named_perform (h : desk.session.Named) {event : App.Event} (hnew : desk.NewName event) :
    (desk.perform event).session.Named := by
  rw [perform_session]
  unfold NewName at hnew
  cases haction : desk.action? event with
  | none => exact h
  | some action =>
      rw [haction, Option.bind_some] at hnew
      exact h.perform action hnew

theorem named_run (h : desk.session.Named) (hfresh : desk.Fresh events) :
    (desk.run events).session.Named := by
  induction events generalizing desk with
  | nil => exact h
  | cons event events ih =>
      obtain ⟨hnew, hrest⟩ := hfresh
      exact ih (named_perform h hnew) hrest

/-! ## Walking -/

/-- A walk that began at a desk has come to a place: nothing but the display has changed, and the
display shows the entry of the place. -/
structure Walking (origin desk : Desk) (place : Option Nat) : Prop where
  closed : desk.help = none
  recalled : desk.recalled = place
  history : desk.session.history = origin.session.history
  points : desk.session.points = origin.session.points
  shows : ∀ i, place = some i →
    ∃ entry, origin.session.history[i]? = some entry ∧ desk.session.Shows entry

variable {origin : Desk} {place : Option Nat}

theorem Walking.start (hclosed : origin.help = none) (hrecalled : origin.recalled = none) :
    Walking origin origin none where
  closed := hclosed
  recalled := hrecalled
  history := rfl
  points := rfl
  shows _ h := nomatch h

/-- An arrow key is for the walk, whatever is typed into. -/
theorem purpose_arrow (h : desk.help = none) (press : ArrowPress) :
    desk.purpose press.event = .walk press.arrow.direction := by
  obtain ⟨stamp, arrow, alt⟩ := press
  unfold ArrowPress.event
  cases hinput : desk.input with
  | expression =>
      rw [purpose_of_expression h hinput]
      cases arrow <;> rfl
  | problem =>
      rw [purpose_of_problem h hinput]
      cases arrow <;> rfl

/-- **One arrow key** moves the place by `Arrow.move`, and the entry of the new place is shown (`Walking`). -/
theorem Walking.press (h : Walking origin desk place) (hnamed : origin.session.Named)
    (hsome : origin.session.history ≠ []) (press : ArrowPress) :
    Walking origin (desk.perform press.event)
      (press.arrow.move origin.session.history.length place) := by
  have hplaced : desk.Placed := by
    intro i hi
    obtain ⟨entry, hentry, -⟩ := h.shows i (h.recalled.symm.trans hi)
    rw [h.history]
    exact (List.getElem?_eq_some_iff.mp hentry).1
  have hlength : origin.session.history.length ≠ 0 := fun hzero =>
    hsome (List.eq_nil_of_length_eq_zero hzero)
  have hmove := Arrow.move_eq hlength press.arrow place
  unfold Desk.perform
  rw [purpose_arrow h.closed]
  rcases hplaced.reached? press.arrow.direction with
    ⟨⟨i, entry⟩, hfound, hwalk, hentry⟩ | ⟨hnone, hwalk⟩
  · -- the walk leads to an entry, which its name finds again
    rw [h.history, h.recalled] at hwalk
    rw [hwalk] at hmove
    have hnamed' : desk.session.Named := by
      unfold Session.Named
      rw [h.history]
      exact hnamed
    have hselect : desk.session.perform (.select entry.id) = desk.session.restore entry :=
      hnamed'.select hentry
    rw [hmove]
    simp only [serve, hfound, hselect]
    refine ⟨h.closed, rfl, h.history, h.points, ?_⟩
    intro j hj
    obtain rfl := Option.some.inj hj
    exact ⟨entry, h.history ▸ hentry, rfl, rfl, rfl⟩
  · -- the walk leads nowhere, and everything stays
    rw [h.history, h.recalled] at hwalk
    rw [hwalk, Option.none_or] at hmove
    rw [hmove]
    simp only [serve, hnone]
    exact h

/-- Any number of arrow keys. -/
theorem Walking.presses (h : Walking origin desk place) (hnamed : origin.session.Named)
    (hsome : origin.session.history ≠ []) (presses : List ArrowPress) :
    Walking origin (desk.run (presses.map ArrowPress.event))
      (presses.foldl (fun place press => press.arrow.move origin.session.history.length place)
        place) := by
  induction presses generalizing desk place with
  | nil => exact h
  | cons press presses ih => exact ih (h.press hnamed hsome press)

end

end Desk

namespace App

/-! ## The calculator -/

/-- **Recall.** After any events `recalled` is a place of the history or none, and so is every place that
`walkTo?` gives, so that an entry is looked up only where there is one. If the names that are given away are
`Fresh`, then from any state with `help` closed, with entries and with none recalled, arrow keys move
`recalled` to and fro between the two ends of the history (`Arrow.move`). Where it has come to a place, the
session `Shows` the entry of that place; `history` and `points` stay as they were. -/
theorem run_recalls (limit : Nat) (domain : Interval) (steps : Nat) (messenger : Option Messenger)
    (events : List Event) :
    let beginning := start (Session.starting limit domain steps) messenger
    let now := beginning.run events
    (∀ i, now.recalled = some i → i < now.session.history.length) ∧
    (∀ direction i, walkTo? now.session.history.length direction now.recalled = some i →
      i < now.session.history.length) ∧
    (beginning.desk.Fresh events → now.help = none → now.session.history ≠ [] →
      now.recalled = none → ∀ presses : List ArrowPress,
      let later := now.run (presses.map ArrowPress.event)
      later.recalled = presses.foldl
        (fun place press => press.arrow.move now.session.history.length place) none ∧
      (∀ i, later.recalled = some i →
        ∃ entry, now.session.history[i]? = some entry ∧ later.session.Shows entry) ∧
      later.session.history = now.session.history ∧ later.session.points = now.session.points) := by
  intro beginning now
  have hdesk : now.desk = beginning.desk.run events := desk_run beginning events
  have hplaced : now.desk.Placed := by
    rw [hdesk]
    exact (Desk.placed_start _).run events
  refine ⟨hplaced, fun direction i hwalk => walkTo?_lt hwalk hplaced, ?_⟩
  intro hfresh hclosed hsome hrecalled presses later
  have hnamed : now.desk.session.Named := by
    rw [hdesk]
    exact Desk.named_run (Session.named_starting limit domain steps) hfresh
  have hlater : later.desk = now.desk.run (presses.map ArrowPress.event) := desk_run now _
  have hwalking := (Desk.Walking.start hclosed hrecalled).presses hnamed hsome presses
  rw [← hlater] at hwalking
  refine ⟨hwalking.recalled, ?_, hwalking.history, hwalking.points⟩
  intro i hi
  exact hwalking.shows i (hwalking.recalled.symm.trans hi)

/-- Three calculations in a history with room for two, and a walk that meets both of its ends. -/
theorem run_recalls_clamped :
    let moment : Timestamp := ⟨⟨2024, 1, 2⟩, ⟨3, 4, 5, 6⟩⟩
    let named (n : Nat) : Stamp := ⟨String.ofList (List.replicate n 'a'), moment⟩
    let keys : List Key := [.typing '1', .typing '=', .plain .escape, .typing '2', .typing '=',
      .plain .escape, .typing '3', .typing '=', .typing '+']
    let events := keys.zipIdx.map fun (key, n) => Event.key (named n) key
    let presses : List ArrowPress :=
      [.down, .down, .down, .up, .up, .down].map fun arrow => ⟨named 0, arrow, false⟩
    let beginning := start (Session.starting 2 Interval.standard 5) none
    let now := beginning.run events
    let later := now.run (presses.map ArrowPress.event)
    beginning.desk.Fresh events ∧ now.help = none ∧ now.session.history ≠ [] ∧
      now.recalled = none ∧ now.session.expression = "3+" ∧ later.recalled = some 1 ∧
      (∃ entry, now.session.history[1]? = some entry ∧ later.session.Shows entry) ∧
      later.session.expression = "2" := by
  intro moment named keys events presses
  -- the states are not named here, since their names would be unfolded in every comparison
  have hfresh : (start (Session.starting 2 Interval.standard 5) none).desk.Fresh events := by
    decide +kernel
  have hclosed : ((start (Session.starting 2 Interval.standard 5) none).run events).help = none := by
    decide +kernel
  have hsome :
      ((start (Session.starting 2 Interval.standard 5) none).run events).session.history ≠ [] := by
    decide +kernel
  have hrecalled :
      ((start (Session.starting 2 Interval.standard 5) none).run events).recalled = none := by
    decide +kernel
  obtain ⟨-, -, hwalk⟩ := run_recalls 2 Interval.standard 5 none events
  obtain ⟨hplace, hshows, -, -⟩ := hwalk hfresh hclosed hsome hrecalled presses
  have hlater := hplace
  rw [show List.foldl _ _ presses = some 1 by decide +kernel] at hlater
  exact ⟨hfresh, hclosed, hsome, hrecalled, by decide +kernel, hlater, hshows 1 hlater,
    by decide +kernel⟩

end App

end Calculator
