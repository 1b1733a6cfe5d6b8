import Calculator.Expression.Reading

/-!
# `Proofs.Grammar.Descent` — reading as a machine that counts its depth

The readers hand tokens and levels on as arguments, so that there is nothing to go wrong with either. Here
the same reading is written down as routines that share a cursor: the place of the next token and a count
of how deep they are nested, which goes up and down as the routines call each other and fail. The machine
that runs them makes one small step after the other and knows no bound of its own: it may go on for ever,
run past the last token or lose count. That it does not is seen from the code of each routine alone. What
its code relies on when it is called, and what it owes when it returns, is `Code.Keeps`; every routine keeps
it, and so does every step.

## Contents

* `Cursor`, `Routine`, `Code`, `Routine.code` — the routines
* `Machine`, `Machine.step?`, `Machine.Reaches` — running them
* `Code.Keeps`, `Routine.code_keeps` — a routine stays within its bounds and gives back the depth
* `Machine.Sound`, `Machine.Sound.step`, `Machine.Sound.reaches` — and so does the machine
-/

namespace Calculator.Descent

/-! ## Routines -/

/-- The place of the next token, and how deep the routines are nested. -/
structure Cursor where
  position : Nat
  depth : Nat
deriving Repr, DecidableEq

/-- What is called or gone back to. The rounds of a sum and of a product are loops: they are gone back to
with what has been read so far. -/
inductive Routine where
  | whole
  | nested (inner : Routine)
  | sum
  | sumRounds (left : Expr)
  | product
  | productRounds (left : Expr)
  | signed
  | power
  | primary
  | close (tree : Expr)

/-- What a routine returns. -/
abbrev Result := Except ExprError Expr

/-- The code of a routine: one instruction, and what comes next. -/
inductive Code where
  | done (result : Result)
  | look (next : Option Token → Code)
  | advance (next : Code)
  | room (next : Bool → Code)
  | descend (next : Code)
  | ascend (next : Code)
  | call (routine : Routine) (next : Result → Code)
  | goto (routine : Routine)

/-- Goes on with a tree, and returns an error at once. -/
def proceed (next : Expr → Code) : Result → Code
  | .error e => .done (.error e)
  | .ok tree => next tree

/-- The rest of a round: an operand, and back to the loop. -/
def Routine.round (operand : Routine) (loop : Expr → Routine) (sign : Char) (left : Expr) : Code :=
  .call operand <| proceed fun right => .goto (loop (.binary sign left right))

/-- A sum in parentheses, once the opening one has been taken. -/
def Routine.enclosed (next : Expr → Code) : Code :=
  .call (.nested .sum) <| proceed fun tree => .call (.close tree) <| proceed next

/-- A word that has been taken. -/
def Routine.word (letters : String) : Code :=
  match Constant.named? letters with
  | some name => .done (.ok (.constant name))
  | none =>
    match Function.named? letters with
    | none => .done (.error (.malformed (.unknownName letters)))
    | some name => .look fun
      | some .opening =>
        .advance <| Routine.enclosed fun argument => .done (.ok (.call name argument))
      | _ => .done (.error (.malformed (.callWithoutParentheses name)))

/-- A token that has been taken and begins a primary, or does not. -/
def Routine.begin : Token → Code
  | .number value => .done (.ok (.number value))
  | .variable => .done (.ok .variable)
  | .opening => Routine.enclosed fun tree => .done (.ok tree)
  | .word letters => Routine.word letters
  | token => .done (.error (.malformed (.unexpected token)))

/-- **The `Code` of each routine.** -/
def Routine.code (tokens : List Token) : Routine → Code
  | .whole =>
    if tokens = [] then .done (.error (.malformed .empty))
    else if tokenLimit < tokens.length then .done (.error (.malformed .tooManyTokens))
    else .call .sum <| proceed fun tree => .look fun
      | some token => .done (.error (.malformed (.trailing token)))
      | none => .done (.ok tree)
  | .nested inner => .room fun
      | true => .descend <| .call inner fun result => .ascend <| .done result
      | false => .done (.error (.malformed .tooDeep))
  | .sum => .call .product <| proceed fun left => .goto (.sumRounds left)
  | .sumRounds left => .look fun
      | some (.operator '+') => .advance <| Routine.round .product .sumRounds '+' left
      | some (.operator '-') => .advance <| Routine.round .product .sumRounds '-' left
      | _ => .done (.ok left)
  | .product => .call .signed <| proceed fun left => .goto (.productRounds left)
  | .productRounds left => .look fun
      | some (.operator '*') => .advance <| Routine.round .signed .productRounds '*' left
      | some (.operator '/') => .advance <| Routine.round .signed .productRounds '/' left
      | some .opening | some (.word _) | some .variable =>
        Routine.round .signed .productRounds '*' left
      | _ => .done (.ok left)
  | .signed => .look fun
      | some (.operator '-') =>
        .advance <| .call (.nested .signed) <| proceed fun operand => .done (.ok (.neg operand))
      | some (.operator '+') => .advance <| .call (.nested .signed) .done
      | _ => .call .power .done
  | .power => .call .primary <| proceed fun base => .look fun
      | some (.operator '^') =>
        .advance <| .call (.nested .signed) <| proceed fun exponent =>
          .done (.ok (.binary '^' base exponent))
      | _ => .done (.ok base)
  | .primary => .look fun
      | some token => .advance (Routine.begin token)
      | none => .done (.error (.malformed .endOfInput))
  | .close tree => .look fun
      | some .closing => .advance <| .done (.ok tree)
      | _ => .done (.error (.malformed .unclosed))

/-! ## The machine -/

/-- A call that has not returned: where the cursor was when it was made, and what comes after it. -/
structure Frame where
  entry : Cursor
  next : Result → Code

/-- The cursor, the code that is left of the routine that runs, and the calls that wait for it. -/
structure Machine where
  cursor : Cursor
  code : Code
  frames : List Frame

namespace Machine

/-- The machine before the whole is read. -/
def start : Machine := ⟨⟨0, 0⟩, .call .whole .done, []⟩

/-- **One step** of the machine. There is none when the last routine is `done`. -/
def step? (tokens : List Token) : Machine → Option Machine
  | ⟨_, .done _, []⟩ => none
  | ⟨cursor, .done result, frame :: frames⟩ => some ⟨cursor, frame.next result, frames⟩
  | ⟨cursor, .look next, frames⟩ => some ⟨cursor, next tokens[cursor.position]?, frames⟩
  | ⟨cursor, .advance next, frames⟩ => some ⟨⟨cursor.position + 1, cursor.depth⟩, next, frames⟩
  | ⟨cursor, .room next, frames⟩ => some ⟨cursor, next (decide (cursor.depth < nestingLimit)), frames⟩
  | ⟨cursor, .descend next, frames⟩ => some ⟨⟨cursor.position, cursor.depth + 1⟩, next, frames⟩
  | ⟨cursor, .ascend next, frames⟩ => some ⟨⟨cursor.position, cursor.depth - 1⟩, next, frames⟩
  | ⟨cursor, .call routine next, frames⟩ => some ⟨cursor, routine.code tokens, ⟨cursor, next⟩ :: frames⟩
  | ⟨cursor, .goto routine, frames⟩ => some ⟨cursor, routine.code tokens, frames⟩

/-- Any number of steps. -/
inductive Reaches (tokens : List Token) : Machine → Machine → Prop where
  | refl (machine : Machine) : Reaches tokens machine machine
  | head {first second last : Machine} (step : first.step? tokens = some second)
      (rest : Reaches tokens second last) : Reaches tokens first last

end Machine

section

variable {tokens : List Token} {depth : Nat} {cursor : Cursor} {result : Result} {next : Expr → Code}
  {after : Option Token → Code}

/-! ## What the code of a routine keeps

The depth at the end of a routine is the one at its start, and on the way the cursor neither passes the last
token nor goes deeper than the limit. Of the routines that it calls no more is needed than that they do the
same. -/

/-- **What code keeps** that runs from a cursor in a routine that was called at `depth`: it never goes beyond
the last token or `nestingLimit`, and is `done` at the same depth. -/
def Code.Keeps (tokens : List Token) (depth : Nat) : Code → Cursor → Prop
  | .done _, cursor => cursor.depth = depth
  | .look next, cursor => (next tokens[cursor.position]?).Keeps tokens depth cursor
  | .advance next, cursor =>
    cursor.position < tokens.length ∧ next.Keeps tokens depth ⟨cursor.position + 1, cursor.depth⟩
  | .room next, cursor => (next (decide (cursor.depth < nestingLimit))).Keeps tokens depth cursor
  | .descend next, cursor =>
    cursor.depth < nestingLimit ∧ next.Keeps tokens depth ⟨cursor.position, cursor.depth + 1⟩
  | .ascend next, cursor =>
    0 < cursor.depth ∧ next.Keeps tokens depth ⟨cursor.position, cursor.depth - 1⟩
  | .call _ next, cursor => ∀ result position, position ≤ tokens.length →
    (next result).Keeps tokens depth ⟨position, cursor.depth⟩
  | .goto _, cursor => cursor.depth = depth

/-- An error is returned at the depth at which it is found. -/
theorem keeps_proceed (hdepth : cursor.depth = depth)
    (h : ∀ tree, (next tree).Keeps tokens depth cursor) : (proceed next result).Keeps tokens depth cursor := by
  cases result with
  | error e => exact hdepth
  | ok tree => exact h tree

/-- Where a token is seen, there is one to be taken. -/
theorem keeps_look (hnone : (after none).Keeps tokens depth cursor)
    (hsome : ∀ token, cursor.position < tokens.length → (after (some token)).Keeps tokens depth cursor) :
    (Code.look after).Keeps tokens depth cursor := by
  show (after tokens[cursor.position]?).Keeps tokens depth cursor
  cases hlook : tokens[cursor.position]? with
  | none => exact hnone
  | some token => exact hsome token (List.getElem?_eq_some_iff.mp hlook).1

theorem keeps_round (operand : Routine) (loop : Expr → Routine) (sign : Char) (left : Expr)
    (hdepth : cursor.depth = depth) : (Routine.round operand loop sign left).Keeps tokens depth cursor :=
  fun _ _ _ => keeps_proceed hdepth fun _ => hdepth

theorem keeps_enclosed (hdepth : cursor.depth = depth)
    (h : ∀ tree position, (next tree).Keeps tokens depth ⟨position, cursor.depth⟩) :
    (Routine.enclosed next).Keeps tokens depth cursor :=
  fun _ _ _ => keeps_proceed hdepth fun _ _ position _ => keeps_proceed hdepth fun tree => h tree position

theorem keeps_word (letters : String) (hdepth : cursor.depth = depth) :
    (Routine.word letters).Keeps tokens depth cursor := by
  unfold Routine.word
  split
  · exact hdepth
  · split
    · exact hdepth
    · refine keeps_look hdepth fun token hlt => ?_
      split
      · exact ⟨hlt, keeps_enclosed hdepth fun _ _ => hdepth⟩
      · exact hdepth

theorem keeps_begin (token : Token) (hdepth : cursor.depth = depth) :
    (Routine.begin token).Keeps tokens depth cursor := by
  cases token with
  | number value => exact hdepth
  | operator sign => exact hdepth
  | word letters => exact keeps_word letters hdepth
  | «variable» => exact hdepth
  | opening => exact keeps_enclosed hdepth fun _ _ => hdepth
  | closing => exact hdepth

/-- **Every routine keeps its bounds** (`Keeps`) and gives back the depth at which it was called. -/
theorem Routine.code_keeps (routine : Routine) (cursor : Cursor) :
    (routine.code tokens).Keeps tokens cursor.depth cursor := by
  cases routine with
  | whole =>
      rw [Routine.code]
      split
      · rfl
      · split
        · rfl
        · exact fun _ _ _ => keeps_proceed rfl fun _ => keeps_look rfl fun _ _ => rfl
  | nested inner =>
      rw [Routine.code, Code.Keeps]
      by_cases hroom : cursor.depth < nestingLimit
      · -- the level that is added is taken away whatever comes back
        rw [decide_eq_true hroom]
        exact ⟨hroom, fun _ _ _ => ⟨Nat.succ_pos _, rfl⟩⟩
      · rw [decide_eq_false hroom]
        rfl
  | sum => exact fun _ _ _ => keeps_proceed rfl fun _ => rfl
  | sumRounds left =>
      refine keeps_look rfl fun token hlt => ?_
      split
      · exact ⟨hlt, keeps_round _ _ _ _ rfl⟩
      · exact ⟨hlt, keeps_round _ _ _ _ rfl⟩
      · rfl
  | product => exact fun _ _ _ => keeps_proceed rfl fun _ => rfl
  | productRounds left =>
      refine keeps_look rfl fun token hlt => ?_
      split
      · exact ⟨hlt, keeps_round _ _ _ _ rfl⟩
      · exact ⟨hlt, keeps_round _ _ _ _ rfl⟩
      · exact keeps_round _ _ _ _ rfl
      · exact keeps_round _ _ _ _ rfl
      · exact keeps_round _ _ _ _ rfl
      · rfl
  | signed =>
      refine keeps_look (fun _ _ _ => rfl) fun token hlt => ?_
      split
      · exact ⟨hlt, fun _ _ _ => keeps_proceed rfl fun _ => rfl⟩
      · exact ⟨hlt, fun _ _ _ => rfl⟩
      · exact fun _ _ _ => rfl
  | power =>
      refine fun _ _ _ => keeps_proceed rfl fun _ => keeps_look rfl fun token hlt => ?_
      split
      · exact ⟨hlt, fun _ _ _ => keeps_proceed rfl fun _ => rfl⟩
      · rfl
  | primary => exact keeps_look rfl fun token hlt => ⟨hlt, keeps_begin token rfl⟩
  | close tree =>
      refine keeps_look rfl fun token hlt => ?_
      split
      · exact ⟨hlt, rfl⟩
      · rfl

/-! ## What the machine keeps -/

/-- The depth at which the routine that runs was called. -/
def entryDepth : List Frame → Nat
  | [] => 0
  | frame :: _ => frame.entry.depth

/-- Each call that waits keeps the bounds of the routine that made it, whatever comes back. -/
def FramesKeep (tokens : List Token) : List Frame → Prop
  | [] => True
  | frame :: frames =>
    (∀ result position, position ≤ tokens.length →
      (frame.next result).Keeps tokens (entryDepth frames) ⟨position, frame.entry.depth⟩) ∧
    FramesKeep tokens frames

/-- **The invariant of the machine**: cursor, code and `frames` keep their bounds. -/
structure Machine.Sound (tokens : List Token) (machine : Machine) : Prop where
  position_le : machine.cursor.position ≤ tokens.length
  depth_le : machine.cursor.depth ≤ nestingLimit
  code_keeps : machine.code.Keeps tokens (entryDepth machine.frames) machine.cursor
  frames_keep : FramesKeep tokens machine.frames

namespace Machine

variable {machine after : Machine}

theorem sound_start (tokens : List Token) : start.Sound tokens :=
  ⟨Nat.zero_le _, Nat.zero_le _, fun _ _ _ => rfl, trivial⟩

/-- **A step keeps the invariant**: one case of `step?` for each instruction. -/
theorem Sound.step (h : machine.Sound tokens) (hstep : machine.step? tokens = some after) :
    after.Sound tokens := by
  obtain ⟨cursor, code, frames⟩ := machine
  obtain ⟨hposition, hdepth, hcode, hframes⟩ := h
  cases code with
  | done result =>
      cases frames with
      | nil => exact absurd hstep (by simp [step?])
      | cons frame frames =>
          obtain rfl := Option.some.inj hstep
          -- the cursor is as deep as when the call was made
          have hreturn := hframes.1 result cursor.position hposition
          rw [← (show cursor.depth = frame.entry.depth from hcode)] at hreturn
          exact ⟨hposition, hdepth, hreturn, hframes.2⟩
  | look next =>
      obtain rfl := Option.some.inj hstep
      exact ⟨hposition, hdepth, hcode, hframes⟩
  | advance next =>
      obtain rfl := Option.some.inj hstep
      exact ⟨hcode.1, hdepth, hcode.2, hframes⟩
  | room next =>
      obtain rfl := Option.some.inj hstep
      exact ⟨hposition, hdepth, hcode, hframes⟩
  | descend next =>
      obtain rfl := Option.some.inj hstep
      exact ⟨hposition, hcode.1, hcode.2, hframes⟩
  | ascend next =>
      obtain rfl := Option.some.inj hstep
      exact ⟨hposition, Nat.le_trans (Nat.sub_le _ _) hdepth, hcode.2, hframes⟩
  | call routine next =>
      obtain rfl := Option.some.inj hstep
      exact ⟨hposition, hdepth, routine.code_keeps cursor, hcode, hframes⟩
  | goto routine =>
      obtain rfl := Option.some.inj hstep
      have hkeeps : (routine.code tokens).Keeps tokens cursor.depth cursor := routine.code_keeps cursor
      rw [show cursor.depth = entryDepth frames from hcode] at hkeeps
      exact ⟨hposition, hdepth, hkeeps, hframes⟩

/-- **A run keeps the invariant**: induction on `Reaches`. -/
theorem Sound.reaches (h : machine.Sound tokens) (hrun : Reaches tokens machine after) :
    after.Sound tokens := by
  induction hrun with
  | refl machine => exact h
  | head step rest ih => exact ih (h.step step)

/-- **At every return** the depth is that of `Frame.entry`, at which the call was made. -/
theorem Sound.depth_eq (h : machine.Sound tokens) {result : Result} {frame : Frame} {frames : List Frame}
    (hdone : machine.code = .done result) (hframes : machine.frames = frame :: frames) :
    machine.cursor.depth = frame.entry.depth := by
  have hcode := h.code_keeps
  rw [hdone, hframes] at hcode
  exact hcode

end Machine

end

end Calculator.Descent
