import Calculator.Proofs.App.Modes
import Calculator.Proofs.Session.Alike

/-!
# `Proofs.App.Undisturbed` — explanations do not disturb the calculator

Explanations come and go beside the calculator: inquiries are handed over or refused, findings come back
early, late or never, and the messenger may be lost. None of it is a matter of the desk. So whatever
happens between two gestures of the user, the desk is what the gestures alone have made of it, and two
users who do the same see the same.

They do not have the same desk, though. An entry of the history has a name that was drawn for it, and the
names of one run have nothing to do with those of the other. Two desks are therefore compared up to names,
and all that is asked of a name is that no entry of its own history has it already.

## Contents

* `Gesture`, `Happening`, `App.after` — what the user does, and what happens
* `View`, `App.views` — what the user sees after every gesture
* `App.Fresh` — new entries get new names
* `Desk.views`, `views_eq`, `Fresh.desk` — between gestures nothing happens at the desk
* `Desk.Alike`, `Desk.Alike.perform`, `Desk.Alike.views` — desks that differ in names only
* `App.run_undisturbed` — two runs with the same gestures
-/

namespace Calculator

/-! ## What happens, and what is seen -/

/-- What the user does. Which name and which moment an entry gets for it is no part of that. -/
inductive Gesture where
  | key (key : Key)
  | token (text : String)
  | navigate (direction : Int)
deriving Repr, DecidableEq

/-- What the user sees of the calculator, explanations apart. -/
structure View where
  expression : String
  result : String
  mode : Mode
  points : List GraphPoint
  history : List (String × String)
  input : Input
  problem : List Char
  recalled : Option Nat
  quitting : Bool
  help : Option Nat
deriving Repr, DecidableEq

/-- What happens around the calculator: an event, or its messenger is exchanged for any other or lost. -/
inductive Happening where
  | occurs (event : App.Event)
  | exchange (messenger : Option Messenger)

/-- The gesture behind an event, if the user is behind it. -/
def App.Event.gesture? : App.Event → Option Gesture
  | .key _ pressed => some (.key pressed)
  | .token text => some (.token text)
  | .navigate direction => some (.navigate direction)
  | .poll | .take | .finish _ => none

namespace Happening

/-- The event, if the user is behind it. -/
def felt? : Happening → Option App.Event
  | .occurs event => if event.gesture?.isSome then some event else none
  | .exchange _ => none

/-- The gesture behind it, if the user is behind it. -/
def gesture? (happening : Happening) : Option Gesture := happening.felt?.bind App.Event.gesture?

end Happening

namespace Desk

/-- What the desk shows. -/
def view (desk : Desk) : View :=
  { expression := desk.session.expression
    result := desk.session.result
    mode := desk.session.mode
    points := desk.session.points
    history := desk.session.history.map Calculation.shown
    input := desk.input
    problem := desk.problem
    recalled := desk.recalled
    quitting := desk.quitting
    help := desk.help }

/-- If an event adds an entry to the history, no entry there has the name that it gets. -/
def NewName (desk : Desk) (event : App.Event) : Prop :=
  ∀ id ∈ (desk.action? event).bind desk.session.newId?, ∀ entry ∈ desk.session.history,
    entry.id ≠ id

instance (desk : Desk) (event : App.Event) : Decidable (desk.NewName event) :=
  inferInstanceAs (Decidable (∀ id ∈ (desk.action? event).bind desk.session.newId?,
    ∀ entry ∈ desk.session.history, entry.id ≠ id))

end Desk

namespace App

/-- The calculator after something has happened. -/
def after (app : App) : Happening → App
  | .occurs event => app.perform event
  | .exchange messenger => { app with messenger := messenger }

/-- What the user sees after each gesture of a run. -/
def views (app : App) : List Happening → List View
  | [] => []
  | happening :: rest =>
    (happening.gesture?.map fun _ => (app.after happening).desk.view).toList ++
      (app.after happening).views rest

/-- In a run every new entry of the history gets a name that no entry there has. -/
def Fresh (app : App) : List Happening → Prop
  | [] => True
  | happening :: rest =>
    (∀ event ∈ happening.felt?, app.desk.NewName event) ∧ (app.after happening).Fresh rest

instance decidableFresh : (app : App) → (happenings : List Happening) →
    Decidable (app.Fresh happenings)
  | _, [] => inferInstanceAs (Decidable True)
  | app, happening :: rest =>
    have := decidableFresh (app.after happening) rest
    inferInstanceAs (Decidable ((∀ event ∈ happening.felt?, app.desk.NewName event) ∧
      (app.after happening).Fresh rest))

end App

/-! ## The desk under gestures alone -/

namespace Desk

/-- What the desk shows after each event. -/
def views (desk : Desk) : List App.Event → List View
  | [] => []
  | event :: events => (desk.perform event).view :: (desk.perform event).views events

/-- In a run of the desk every new entry of the history gets a name that no entry there has. -/
def Fresh (desk : Desk) : List App.Event → Prop
  | [] => True
  | event :: events => desk.NewName event ∧ (desk.perform event).Fresh events

theorem purpose_of_not_gesture {event : App.Event} (h : event.gesture? = none) (desk : Desk) :
    desk.purpose event = .nothing := by
  cases event with
  | poll => rfl
  | take => rfl
  | finish outcome => rfl
  | _ => exact absurd h (by simp [App.Event.gesture?])

end Desk

namespace App

section

variable {event : Event} {key : Key} {text : String} {direction : Int}

theorem Event.gesture?_key (h : event.gesture? = some (.key key)) :
    ∃ stamp, event = .key stamp key := by
  cases event with
  | key stamp pressed => exact ⟨stamp, by simpa [gesture?] using h⟩
  | _ => exact absurd h (by simp [gesture?])

theorem Event.gesture?_token (h : event.gesture? = some (.token text)) : event = .token text := by
  cases event with
  | token _ => simpa [gesture?] using h
  | _ => exact absurd h (by simp [gesture?])

theorem Event.gesture?_navigate (h : event.gesture? = some (.navigate direction)) :
    event = .navigate direction := by
  cases event with
  | navigate _ => simpa [gesture?] using h
  | _ => exact absurd h (by simp [gesture?])

end

section

variable {app : App} {happening : Happening} {happenings : List Happening} {event : Event}

theorem felt?_cases (happening : Happening) :
    happening.felt? = none ∨
      ∃ event, happening = .occurs event ∧ happening.felt? = some event ∧
        event.gesture?.isSome = true := by
  cases happening with
  | exchange messenger => exact .inl rfl
  | occurs event =>
      unfold Happening.felt?
      by_cases h : event.gesture?.isSome = true
      · exact .inr ⟨event, rfl, if_pos h, h⟩
      · exact .inl (if_neg h)

/-- What the user is not behind does nothing to the desk. -/
theorem desk_after_of_unfelt (h : happening.felt? = none) : (app.after happening).desk = app.desk := by
  cases happening with
  | exchange messenger => rfl
  | occurs event =>
      have hnone : event.gesture? = none := by
        unfold Happening.felt? at h
        cases hgesture : event.gesture? with
        | none => rfl
        | some gesture => simp [hgesture] at h
      have hperform : app.desk.perform event = app.desk := by
        unfold Desk.perform
        rw [Desk.purpose_of_not_gesture hnone]
        rfl
      exact (app.desk_perform event).trans hperform

/-- Between gestures nothing happens that could be seen. -/
theorem views_eq (app : App) (happenings : List Happening) :
    app.views happenings = app.desk.views (happenings.filterMap Happening.felt?) := by
  induction happenings generalizing app with
  | nil => rfl
  | cons happening rest ih =>
      rcases felt?_cases happening with hnone | ⟨event, rfl, hfelt, hgesture⟩
      · rw [views, Happening.gesture?, hnone, List.filterMap_cons_none hnone, ih,
          desk_after_of_unfelt hnone]
        rfl
      · obtain ⟨gesture, hgesture⟩ := Option.isSome_iff_exists.mp hgesture
        rw [views, Happening.gesture?, hfelt, List.filterMap_cons_some hfelt, ih, Desk.views,
          Option.bind_some, hgesture]
        show (app.perform event).desk.view :: (app.perform event).desk.views _ = _
        rw [desk_perform]

theorem Fresh.desk (h : app.Fresh happenings) :
    app.desk.Fresh (happenings.filterMap Happening.felt?) := by
  induction happenings generalizing app with
  | nil => trivial
  | cons happening rest ih =>
      obtain ⟨hnew, hrest⟩ := h
      have hdesk := ih hrest
      rcases felt?_cases happening with hnone | ⟨event, rfl, hfelt, -⟩
      · rw [List.filterMap_cons_none hnone]
        rwa [desk_after_of_unfelt hnone] at hdesk
      · rw [List.filterMap_cons_some hfelt]
        refine ⟨hnew event hfelt, ?_⟩
        have hperform : (app.after (.occurs event)).desk = app.desk.perform event :=
          app.desk_perform event
        rwa [hperform] at hdesk

/-- The gestures of a run are those of the events that the user is behind. -/
theorem map_gesture?_felt (happenings : List Happening) :
    (happenings.filterMap Happening.felt?).map Event.gesture? =
      (happenings.filterMap Happening.gesture?).map some := by
  induction happenings with
  | nil => rfl
  | cons happening rest ih =>
      rcases felt?_cases happening with hnone | ⟨event, rfl, hfelt, hgesture⟩
      · have hnone' : happening.gesture? = none := by
          rw [Happening.gesture?, hnone]
          rfl
        rw [List.filterMap_cons_none hnone, List.filterMap_cons_none hnone', ih]
      · obtain ⟨gesture, hgesture⟩ := Option.isSome_iff_exists.mp hgesture
        have hsome : (Happening.occurs event).gesture? = some gesture := by
          rw [Happening.gesture?, hfelt, Option.bind_some, hgesture]
        rw [List.filterMap_cons_some hfelt, List.filterMap_cons_some hsome, List.map_cons,
          List.map_cons, ih, hgesture]

end

end App

/-! ## Desks that differ in names -/

/-- Purposes that differ in nothing but the stamp for what is calculated. -/
inductive Purpose.Same : Purpose → Purpose → Prop where
  | refl (purpose : Purpose) : Same purpose purpose
  | evaluate (stamp stamp' : Stamp) : Same (.act (.evaluate stamp)) (.act (.evaluate stamp'))

theorem Purpose.typed_same (stamp stamp' : Stamp) (c : Char) :
    Same (.act (typed stamp c)) (.act (typed stamp' c)) := by
  unfold typed
  by_cases hequals : c = '='
  · rw [if_pos hequals, if_pos hequals]
    exact .evaluate stamp stamp'
  · rw [if_neg hequals, if_neg hequals]
    exact .refl _

theorem Purpose.inExpression_same (stamp stamp' : Stamp) (key : Key) :
    Same (inExpression stamp key) (inExpression stamp' key) := by
  obtain ⟨code, control, alt⟩ := key
  unfold inExpression
  cases control with
  | true => exact .refl _
  | false =>
      cases code with
      | character c => exact typed_same stamp stamp' c
      | enter => exact .evaluate stamp stamp'
      | _ => exact .refl _

namespace Desk

/-- Desks that differ in nothing but the names and the moments of the entries of their histories. -/
structure Alike (a b : Desk) : Prop where
  session : a.session.Alike b.session
  others : b = { a with session := b.session }

section

variable {a b : Desk} {event event' : App.Event} {events events' : List App.Event}

theorem Alike.refl (desk : Desk) : Alike desk desk := ⟨.refl desk.session, rfl⟩

theorem Alike.help (h : Alike a b) : b.help = a.help := by rw [h.others]

theorem Alike.input (h : Alike a b) : b.input = a.input := by rw [h.others]

theorem Alike.recalled (h : Alike a b) : b.recalled = a.recalled := by rw [h.others]

/-- Desks that are alike show the same. -/
theorem Alike.view (h : Alike a b) : a.view = b.view := by
  calc a.view = { a.view with history := b.session.history.map Calculation.shown } := by
        rw [← h.session.shown]
        rfl
    _ = { a with session := { a.session with history := b.session.history } }.view := rfl
    _ = { a with session := b.session }.view := by rw [← h.session.others]
    _ = b.view := by rw [← h.others]

/-- The same gesture has the same purpose at both desks. -/
theorem Alike.purpose (h : Alike a b) (hsame : event.gesture? = event'.gesture?) :
    Purpose.Same (a.purpose event) (b.purpose event') := by
  cases hgesture : event.gesture? with
  | none =>
      rw [purpose_of_not_gesture hgesture, purpose_of_not_gesture (hsame.symm.trans hgesture)]
      exact .refl _
  | some gesture =>
      have hgesture' := hsame.symm.trans hgesture
      cases gesture with
      | key key =>
          obtain ⟨stamp, rfl⟩ := App.Event.gesture?_key hgesture
          obtain ⟨stamp', rfl⟩ := App.Event.gesture?_key hgesture'
          cases hhelp : a.help with
          | some scroll =>
              rw [purpose_of_help hhelp, purpose_of_help (h.help.trans hhelp)]
              exact .refl _
          | none =>
              have hhelp' := h.help.trans hhelp
              cases hinput : a.input with
              | expression =>
                  rw [purpose_of_expression hhelp hinput,
                    purpose_of_expression hhelp' (h.input.trans hinput)]
                  exact Purpose.inExpression_same stamp stamp' key
              | problem =>
                  rw [purpose_of_problem hhelp hinput,
                    purpose_of_problem hhelp' (h.input.trans hinput)]
                  exact .refl _
      | token text =>
          rw [App.Event.gesture?_token hgesture, App.Event.gesture?_token hgesture']
          simp only [Desk.purpose, h.input]
          exact .refl _
      | navigate direction =>
          rw [App.Event.gesture?_navigate hgesture, App.Event.gesture?_navigate hgesture']
          exact .refl _

/-- The same step of the walk leads to entries side by side, or nowhere. -/
theorem Alike.reached? (h : Alike a b) (direction : Int) :
    (a.reached? direction = none ∧ b.reached? direction = none) ∨
      ∃ i entry entry', a.reached? direction = some (i, entry) ∧
        b.reached? direction = some (i, entry') ∧ a.session.history[i]? = some entry ∧
        b.session.history[i]? = some entry' := by
  unfold Desk.reached?
  rw [h.recalled, ← h.session.length]
  cases hwalk : App.walkTo? a.session.history.length direction a.recalled with
  | none => exact .inl ⟨rfl, rfl⟩
  | some i =>
      simp only [Option.bind_some]
      by_cases hi : i < a.session.history.length
      · have hi' : i < b.session.history.length := by rwa [← h.session.length]
        rw [List.getElem?_eq_getElem hi, List.getElem?_eq_getElem hi']
        exact .inr ⟨i, _, _, rfl, rfl, List.getElem?_eq_getElem hi, List.getElem?_eq_getElem hi'⟩
      · have hi' : ¬ i < b.session.history.length := by rwa [← h.session.length]
        rw [List.getElem?_eq_none (by omega), List.getElem?_eq_none (by omega)]
        exact .inl ⟨rfl, rfl⟩

/-- A step that has nothing to do with the session keeps desks alike. -/
theorem Alike.map (h : Alike a b) (step : Desk → Desk)
    (hstep : ∀ desk session, step { desk with session := session } =
      { step desk with session := session }) : Alike (step a) (step b) := by
  have hkept : ∀ desk, (step desk).session = desk.session := by
    intro desk
    have heq := congrArg Desk.session (hstep desk desk.session)
    exact heq
  refine ⟨?_, ?_⟩
  · rw [hkept a, hkept b]
    exact h.session
  · rw [hkept b, ← hstep, ← h.others]

/-- The sessions go on alike, and the walk stands at the same place. -/
theorem Alike.moveOn (h : Alike a b) {next next' : Session} (hnext : next.Alike next')
    (recalled : Option Nat) :
    Alike { a with session := next, recalled := recalled }
      { b with session := next', recalled := recalled } := by
  refine ⟨hnext, ?_⟩
  have hothers := congrArg
    (fun desk : Desk => { desk with session := next', recalled := recalled }) h.others
  exact hothers

theorem Alike.recalledAfter (h : Alike a b) (action : Session.Action) :
    b.recalledAfter action = a.recalledAfter action := by
  unfold Desk.recalledAfter
  rw [h.recalled]

theorem Alike.serve_walk (h : Alike a b) (direction : Int) :
    Alike (a.serve (.walk direction)) (b.serve (.walk direction)) := by
  simp only [serve]
  rcases h.reached? direction with ⟨ha, hb⟩ | ⟨i, entry, entry', ha, hb, hentry, hentry'⟩
  · rw [ha, hb]
    exact h
  · rw [ha, hb]
    exact h.moveOn (h.session.select hentry hentry') (some i)

/-- Desks that are alike stay alike when the same purpose is served, if a name that is given away is new
at each of them. -/
theorem Alike.serve (h : Alike a b) {purpose purpose' : Purpose}
    (hsame : Purpose.Same purpose purpose') (hselect : ∀ id, purpose ≠ .act (.select id))
    (hnew : ∀ stamp, purpose = .act (.evaluate stamp) →
      ∀ id ∈ a.session.newId? (.evaluate stamp), ∀ entry ∈ a.session.history, entry.id ≠ id)
    (hnew' : ∀ stamp, purpose' = .act (.evaluate stamp) →
      ∀ id ∈ b.session.newId? (.evaluate stamp), ∀ entry ∈ b.session.history, entry.id ≠ id) :
    Alike (a.serve purpose) (b.serve purpose') := by
  cases hsame with
  | evaluate stamp stamp' =>
      exact h.moveOn (h.session.evaluate (hnew stamp rfl) (hnew' stamp' rfl)) none
  | refl =>
      cases purpose with
      | act action =>
          simp only [Desk.serve, h.recalledAfter]
          cases action with
          | append text => exact h.moveOn (h.session.append text) _
          | eraseLast => exact h.moveOn h.session.eraseLast _
          | clear => exact h.moveOn h.session.clear _
          | evaluate stamp =>
              exact h.moveOn (h.session.evaluate (hnew stamp rfl) (hnew' stamp rfl)) _
          | select id => exact absurd rfl (hselect id)
      | walk direction => exact h.serve_walk direction
      | edit edit => exact h.map (·.serve (.edit edit)) fun _ _ => rfl
      | switch => exact h.map (·.serve .switch) fun _ _ => rfl
      | turn help => exact h.map (·.serve (.turn help)) fun _ _ => rfl
      | quit => exact h.map (·.serve .quit) fun _ _ => rfl
      | nothing => exact h

theorem action?_of_evaluate {desk : Desk} {stamp : Stamp}
    (h : desk.purpose event = .act (.evaluate stamp)) :
    desk.action? event = some (.evaluate stamp) := by
  unfold action?
  rw [h]

/-- What a new name is, put in terms of the purpose of the event. -/
theorem NewName.of_evaluate {desk : Desk} {stamp : Stamp} (hnew : desk.NewName event)
    (h : desk.purpose event = .act (.evaluate stamp)) :
    ∀ id ∈ desk.session.newId? (.evaluate stamp), ∀ entry ∈ desk.session.history,
      entry.id ≠ id := by
  unfold NewName at hnew
  rwa [action?_of_evaluate h, Option.bind_some] at hnew

/-- **The same gesture at desks that are alike**: `perform` keeps `Alike`, if the names that are given away
are new. -/
theorem Alike.perform (h : Alike a b) (hsame : event.gesture? = event'.gesture?)
    (hnew : a.NewName event) (hnew' : b.NewName event') :
    Alike (a.perform event) (b.perform event') :=
  h.serve (h.purpose hsame) (a.purpose_ne_select event) (fun _ => hnew.of_evaluate)
    fun _ => hnew'.of_evaluate

/-- **The same gestures at desks that are alike** have the same `views`. -/
theorem Alike.views (h : Alike a b)
    (hsame : events.map App.Event.gesture? = events'.map App.Event.gesture?)
    (hfresh : a.Fresh events) (hfresh' : b.Fresh events') : a.views events = b.views events' := by
  induction events generalizing a b events' with
  | nil =>
      obtain rfl := List.map_eq_nil_iff.mp hsame.symm
      rfl
  | cons event events ih =>
      cases events' with
      | nil => exact absurd hsame (by simp)
      | cons event' events' =>
          obtain ⟨hhead, hrest⟩ := List.cons.inj hsame
          have hperform := h.perform hhead hfresh.1 hfresh'.1
          rw [Desk.views, Desk.views, hperform.view, ih hperform hrest hfresh.2 hfresh'.2]

end

end Desk

namespace App

/-! ## Two runs -/

/-- **Explanations do not disturb the calculator.** Two runs from one session whose happenings have the same
gestures (`Happening.gesture?`) have the same `views`: whether there is a messenger, what it does and when,
when the calculator does `poll`, and whether the messenger is exchanged or lost on the way makes no
difference. -/
theorem run_undisturbed (session : Session) (messenger messenger' : Option Messenger)
    (happenings happenings' : List Happening)
    (hsame : happenings.filterMap Happening.gesture? = happenings'.filterMap Happening.gesture?)
    (hfresh : (start session messenger).Fresh happenings)
    (hfresh' : (start session messenger').Fresh happenings') :
    (start session messenger).views happenings = (start session messenger').views happenings' := by
  have hgestures : (happenings.filterMap Happening.felt?).map Event.gesture? =
      (happenings'.filterMap Happening.felt?).map Event.gesture? := by
    rw [map_gesture?_felt, map_gesture?_felt, hsame]
  rw [views_eq, views_eq]
  -- both runs begin at one desk, which is like itself
  exact (Desk.Alike.refl (.start session)).views hgestures hfresh.desk hfresh'.desk

/-- Two calculations, a question and a step back, once without a messenger and once with one that fails,
is lost and comes back. -/
theorem run_undisturbed_recall :
    let moment : Timestamp := ⟨⟨2024, 1, 2⟩, ⟨3, 4, 5, 6⟩⟩
    let keys : List Key := [.typing '6', .typing '*', .typing '7', .typing '=', .plain (.function 2),
      .plain .escape, .typing '1', .plain .enter, .plain .down, .plain .down]
    let alone := keys.zipIdx.map fun (key, n) =>
      Happening.occurs (.key ⟨String.ofList (List.replicate n 'a'), moment⟩ key)
    let beside := keys.zipIdx.flatMap fun (key, n) =>
      [.exchange (some (.idle .offline)),
        Happening.occurs (.key ⟨String.ofList (List.replicate n 'b'), moment⟩ key),
        .occurs .take, .occurs (.finish (.error .offline)), .occurs .poll, .exchange none]
    alone.filterMap Happening.gesture? = beside.filterMap Happening.gesture? ∧
      (start .empty none).Fresh alone ∧ (start .empty (some (.idle .offline))).Fresh beside ∧
      (start .empty (some (.idle .offline))).views beside = (start .empty none).views alone ∧
      ((start .empty (some (.idle .offline))).views beside).getLast? = some
        { expression := "6×7", result := "42", mode := .scalar, points := []
          history := [("1", "1"), ("6×7", "42")], input := .expression, problem := []
          recalled := some 1, quitting := false, help := none } := by
  intro moment keys alone beside
  have hsame : alone.filterMap Happening.gesture? = beside.filterMap Happening.gesture? := by
    decide +kernel
  have hfresh : (start .empty none).Fresh alone := by decide +kernel
  have hfresh' : (start .empty (some (.idle .offline))).Fresh beside := by decide +kernel
  have hviews := run_undisturbed .empty none (some (.idle .offline)) alone beside hsame hfresh hfresh'
  refine ⟨hsame, hfresh, hfresh', hviews.symm, ?_⟩
  rw [← hviews]
  decide +kernel

end App

end Calculator
