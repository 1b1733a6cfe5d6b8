import Calculator.Proofs.Session.Successes

/-!
# `Proofs.Session.Alike` — sessions that differ in names only

An entry of the history gets a name and a moment from outside. Neither is shown, and the name is used for
one thing: to find the entry again. So it does not matter which names the entries have, only which of them
share one. Two sessions are alike if their entries show the same and share names in the same places, and
nothing else in them differs. They stay alike when the same is done to both, as long as a new entry gets a
name in each of them that no entry there has.

## Contents

* `Paired` — the entries of two histories side by side
* `Alike` — sessions that differ in names and moments
* `Alike.map`, `Alike.record`, `Alike.evaluate`, `Alike.select` — what keeps them alike
-/

namespace Calculator

/-- The entries of two histories side by side: they show the same, and entries share a name in the one
history if and only if they do in the other. -/
structure Paired (pairs : List (Calculation × Calculation)) : Prop where
  shown : ∀ p ∈ pairs, p.1.shown = p.2.shown
  names : ∀ p ∈ pairs, ∀ q ∈ pairs, p.1.id = q.1.id ↔ p.2.id = q.2.id

namespace Session

/-- The name of the entry that an action adds to the history, if it adds one. -/
def newId? (session : Session) : Action → Option String
  | .evaluate stamp => (session.success? (.evaluate stamp)).map fun _ => stamp.id
  | _ => none

/-- Sessions that differ in nothing but the names and the moments of their entries. -/
structure Alike (a b : Session) : Prop where
  histories : ∃ pairs, Paired pairs ∧ a.history = pairs.map Prod.fst ∧
    b.history = pairs.map Prod.snd
  others : b = { a with history := b.history }

end Session

section

variable {pairs : List (Calculation × Calculation)} {entry entry' : Calculation}
  {p : Calculation × Calculation}

/-! ## Histories side by side -/

theorem Paired.diagonal (history : List Calculation) :
    Paired (history.map fun entry => (entry, entry)) := by
  constructor
  · intro p hp
    obtain ⟨entry, -, rfl⟩ := List.mem_map.mp hp
    rfl
  · intro p hp q hq
    obtain ⟨entry, -, rfl⟩ := List.mem_map.mp hp
    obtain ⟨other, -, rfl⟩ := List.mem_map.mp hq
    exact Iff.rfl

theorem Paired.take (h : Paired pairs) (limit : Nat) : Paired (pairs.take limit) :=
  ⟨fun p hp => h.shown p (List.mem_of_mem_take hp),
    fun p hp q hq => h.names p (List.mem_of_mem_take hp) q (List.mem_of_mem_take hq)⟩

/-- Entries with new names go in front of both. -/
theorem Paired.cons (h : Paired pairs) (hshown : entry.shown = entry'.shown)
    (hnew : ∀ p ∈ pairs, p.1.id ≠ entry.id) (hnew' : ∀ p ∈ pairs, p.2.id ≠ entry'.id) :
    Paired ((entry, entry') :: pairs) := by
  constructor
  · intro p hp
    rcases List.mem_cons.mp hp with rfl | hp
    · exact hshown
    · exact h.shown p hp
  · intro p hp q hq
    rcases List.mem_cons.mp hp with rfl | hp
    · rcases List.mem_cons.mp hq with rfl | hq
      · exact ⟨fun _ => rfl, fun _ => rfl⟩
      · exact ⟨fun heq => absurd heq.symm (hnew q hq), fun heq => absurd heq.symm (hnew' q hq)⟩
    · rcases List.mem_cons.mp hq with rfl | hq
      · exact ⟨fun heq => absurd heq (hnew p hp), fun heq => absurd heq (hnew' p hp)⟩
      · exact h.names p hp q hq

/-- By its name an entry is found in the one history where its partner is found in the other. -/
theorem Paired.find? (h : Paired pairs) (hp : p ∈ pairs) :
    ∃ q ∈ pairs, (pairs.map Prod.fst).find? (fun entry => entry.id == p.1.id) = some q.1 ∧
      (pairs.map Prod.snd).find? (fun entry => entry.id == p.2.id) = some q.2 := by
  -- both searches ask the same of every pair, so they stop at the same one
  have hsame : ∀ q ∈ pairs, (q.1.id == p.1.id) = (q.2.id == p.2.id) := by
    intro q hq
    have hnames := h.names q hq p hp
    rw [Bool.eq_iff_iff, beq_iff_eq, beq_iff_eq]
    exact hnames
  have hfind : pairs.find? (fun q => q.2.id == p.2.id) = pairs.find? fun q => q.1.id == p.1.id := by
    rw [← List.head?_filter, ← List.head?_filter, List.filter_congr hsame]
  have hsome : (pairs.find? fun q => q.1.id == p.1.id).isSome = true :=
    List.find?_isSome.mpr ⟨p, hp, beq_iff_eq.mpr rfl⟩
  obtain ⟨q, hq⟩ := Option.isSome_iff_exists.mp hsome
  refine ⟨q, List.mem_of_find?_eq_some hq, ?_, ?_⟩
  · rw [List.find?_map]
    exact congrArg (Option.map Prod.fst) hq
  · rw [List.find?_map]
    exact congrArg (Option.map Prod.snd) (hfind.trans hq)

end

namespace Session

section

variable {a b : Session} {stamp stamp' : Stamp} {entry entry' : Calculation}

/-! ## Sessions -/

theorem Alike.refl (session : Session) : Alike session session :=
  ⟨⟨_, .diagonal session.history, by simp [Function.comp_def], by simp [Function.comp_def]⟩, rfl⟩

theorem Alike.expression (h : Alike a b) : b.expression = a.expression := by rw [h.others]

theorem Alike.capacity (h : Alike a b) : b.capacity = a.capacity := by rw [h.others]

theorem Alike.shown (h : Alike a b) :
    a.history.map Calculation.shown = b.history.map Calculation.shown := by
  obtain ⟨pairs, hpairs, ha, hb⟩ := h.histories
  rw [ha, hb, List.map_map, List.map_map]
  exact List.map_congr_left hpairs.shown

theorem Alike.length (h : Alike a b) : a.history.length = b.history.length := by
  simpa using congrArg List.length h.shown

/-- A step that has nothing to do with the history keeps sessions alike. -/
theorem Alike.map (h : Alike a b) (step : Session → Session)
    (hstep : ∀ session history, step { session with history := history } =
      { step session with history := history }) : Alike (step a) (step b) := by
  have hkept : ∀ session, (step session).history = session.history := by
    intro session
    have heq := congrArg Session.history (hstep session session.history)
    exact heq
  have ha := hkept a
  have hb := hkept b
  refine ⟨?_, ?_⟩
  · rw [ha, hb]
    exact h.histories
  · rw [hb, ← hstep, ← h.others]

theorem Alike.append (h : Alike a b) (text : String) : Alike (a.append text) (b.append text) :=
  h.map (·.append text) fun _ _ => rfl

theorem Alike.eraseLast (h : Alike a b) : Alike a.eraseLast b.eraseLast :=
  h.map Session.eraseLast fun _ _ => by simp only [Session.eraseLast]

theorem Alike.clear (h : Alike a b) : Alike a.clear b.clear := h.map Session.clear fun _ _ => rfl

/-- Entries with new names that show the same are put into both histories. -/
theorem Alike.record (h : Alike a b) (hshown : entry.shown = entry'.shown)
    (hnew : ∀ other ∈ a.history, other.id ≠ entry.id)
    (hnew' : ∀ other ∈ b.history, other.id ≠ entry'.id) :
    Alike { a with history := a.record entry } { b with history := b.record entry' } := by
  obtain ⟨pairs, hpairs, ha, hb⟩ := h.histories
  have hcons : Paired ((entry, entry') :: pairs) := by
    refine hpairs.cons hshown (fun p hp => hnew _ ?_) (fun p hp => hnew' _ ?_)
    · rw [ha]
      exact List.mem_map_of_mem hp
    · rw [hb]
      exact List.mem_map_of_mem hp
  refine ⟨⟨_, hcons.take a.capacity, ?_, ?_⟩, ?_⟩
  · rw [List.map_take, List.map_cons, ← ha]
    rfl
  · rw [List.map_take, List.map_cons, ← hb, ← h.capacity]
    rfl
  · have hothers := congrArg (fun c : Session => { c with history := b.record entry' }) h.others
    exact hothers

theorem evaluate_of_blank (h : a.expression = "") : a.evaluate stamp = a :=
  if_pos (String.isEmpty_iff.mpr h)

theorem evaluate_of_mentions (h : a.expression ≠ "")
    (hmentions : mentionsVariable a.expression = true) : a.evaluate stamp = a.evaluateGraph := by
  unfold Session.evaluate
  rw [if_neg (fun hblank => h (String.isEmpty_iff.mp hblank)), if_pos hmentions]

theorem evaluate_of_number (h : a.expression ≠ "") (hscalar : mentionsVariable a.expression = false)
    {text : String} (hvalue : Calculator.evaluate a.expression = .number text) :
    a.evaluate stamp = { a with
      result := text
      mode := .scalar
      history := a.record ⟨stamp.id, a.expression, text, stamp.timestamp⟩ } := by
  unfold Session.evaluate evaluateScalar
  rw [if_neg (fun hblank => h (String.isEmpty_iff.mp hblank)), if_neg (by simp [hscalar]), hvalue]
  rfl

theorem evaluate_of_error (h : a.expression ≠ "") (hscalar : mentionsVariable a.expression = false)
    (hvalue : Calculator.evaluate a.expression = .error) :
    a.evaluate stamp = { a with result := errorWord, mode := .scalar } := by
  unfold Session.evaluate evaluateScalar
  rw [if_neg (fun hblank => h (String.isEmpty_iff.mp hblank)), if_neg (by simp [hscalar]), hvalue]
  rfl

/-- The name that an evaluation gives away is the one in the stamp. -/
theorem newId?_of_number (h : a.expression ≠ "") (hscalar : mentionsVariable a.expression = false)
    {text : String} (hvalue : Calculator.evaluate a.expression = .number text) :
    a.newId? (.evaluate stamp) = some stamp.id := by
  have hname : a.newId? (.evaluate stamp) =
      (a.success? (.evaluate stamp)).map fun _ => stamp.id := rfl
  rw [hname, success?_of_number h hscalar hvalue, Option.map_some]

/-- The sessions are evaluated, and a new entry gets a new name in each. -/
theorem Alike.evaluate (h : Alike a b)
    (hnew : ∀ id ∈ a.newId? (.evaluate stamp), ∀ entry ∈ a.history, entry.id ≠ id)
    (hnew' : ∀ id ∈ b.newId? (.evaluate stamp'), ∀ entry ∈ b.history, entry.id ≠ id) :
    Alike (a.evaluate stamp) (b.evaluate stamp') := by
  have hsame := h.expression
  by_cases hblank : a.expression = ""
  · rw [evaluate_of_blank hblank, evaluate_of_blank (hsame.trans hblank)]
    exact h
  have hblank' : b.expression ≠ "" := by rwa [hsame]
  cases hmentions : mentionsVariable a.expression with
  | true =>
      rw [evaluate_of_mentions hblank hmentions,
        evaluate_of_mentions hblank' (by rwa [hsame])]
      exact h.map evaluateGraph fun _ _ => rfl
  | false =>
      have hscalar : mentionsVariable b.expression = false := by rwa [hsame]
      cases hvalue : Calculator.evaluate a.expression with
      | error =>
          rw [evaluate_of_error hblank hmentions hvalue,
            evaluate_of_error hblank' hscalar (by rwa [hsame])]
          exact h.map (fun c => { c with result := errorWord, mode := .scalar }) fun _ _ => rfl
      | number text =>
          -- the one case in which the histories change, and names are given away
          have hvalue' : Calculator.evaluate b.expression = .number text := by rwa [hsame]
          have hrecord : Alike
              { a with history := a.record ⟨stamp.id, a.expression, text, stamp.timestamp⟩ }
              { b with history := b.record ⟨stamp'.id, b.expression, text, stamp'.timestamp⟩ } := by
            refine h.record ?_ (hnew _ ?_) (hnew' _ ?_)
            · rw [hsame]
              rfl
            · exact newId?_of_number hblank hmentions hvalue
            · exact newId?_of_number hblank' hscalar hvalue'
          rw [evaluate_of_number hblank hmentions hvalue,
            evaluate_of_number hblank' hscalar hvalue']
          exact hrecord.map (fun c => { c with result := text, mode := .scalar }) fun _ _ => rfl

/-- Entries that stand side by side are recalled. -/
theorem Alike.select (h : Alike a b) {i : Nat} (hentry : a.history[i]? = some entry)
    (hentry' : b.history[i]? = some entry') : Alike (a.select entry.id) (b.select entry'.id) := by
  obtain ⟨pairs, hpairs, ha, hb⟩ := h.histories
  rw [ha, List.getElem?_map] at hentry
  rw [hb, List.getElem?_map] at hentry'
  obtain ⟨p, hp, rfl⟩ := Option.map_eq_some_iff.mp hentry
  rw [hp] at hentry'
  obtain rfl := Option.some.inj hentry'
  obtain ⟨q, hq, hfound, hfound'⟩ := hpairs.find? (List.mem_of_getElem? hp)
  have hselect : a.select p.1.id = a.restore q.1 := by
    unfold Session.select entry?
    rw [ha, hfound]
  have hselect' : b.select p.2.id = b.restore q.1 := by
    unfold Session.select entry? restore
    have hshown := Prod.mk.inj (hpairs.shown q hq)
    rw [hb, hfound', hshown.1, hshown.2]
  rw [hselect, hselect']
  exact h.map (·.restore q.1) fun _ _ => rfl

end

end Session

end Calculator
