import Calculator.Proofs.Grammar.Completeness
import Calculator.Proofs.Grammar.Descent

/-!
# `Proofs.Grammar.Halting` — the machine halts, with what the readers read

Every routine that is started returns: that is shown of the routines of one level over those of the level
below, as the readers are defined, and within a level by the number of tokens that are left. On the way each
routine is seen to return what its reader returns, and to leave the cursor where its reader leaves the
tokens. The readers are defined with a limit on their levels and on their rounds. The machine has neither:
it goes down as far as it finds room, goes round as often as an operator stands there, and halts all the
same.

## Contents

* `Runs`, `Agrees` — code that comes to its end, with the outcome of a reader
* `Follows`, `FollowsBelow` — a routine and its reader, one level apart
* `primary_follows` … `sum_follows` — the routines of a level, with `Loops` and `rounds_agree` for the rounds
* `follows_below` — all levels
* `whole_agrees`, `machine_halts` — the whole
-/

namespace Calculator.Descent

variable {tokens rest : List Token} {position depth last last' levels : Nat} {e : ExprError}
  {result result' : Result} {outcome read : Except ExprError (Expr × List Token)} {routine : Routine}
  {code code' : Code} {reader : Reader} {below : Readers} {next : Expr → Code}

/-! ## Runs -/

theorem Machine.Reaches.trans {first second third : Machine} (h : Reaches tokens first second)
    (h' : Reaches tokens second third) : Reaches tokens first third := by
  induction h with
  | refl machine => exact h'
  | head step rest ih => exact .head step (ih h')

/-- Where a run halts is where every run leads. -/
theorem Machine.Reaches.halts {first machine final : Machine} (h : Reaches tokens first machine)
    (hfinal : Reaches tokens first final) (hhalt : final.step? tokens = none) :
    Reaches tokens machine final := by
  induction h with
  | refl machine => exact hfinal
  | head step rest ih =>
      cases hfinal with
      | refl => exact absurd (step.symm.trans hhalt) (by simp)
      | head step' rest' =>
          obtain rfl := Option.some.inj (step.symm.trans step')
          exact ih rest'

/-- **The code comes to its end**: it `Reaches` `done` with a result, whatever calls wait, and the depth is as
it was. -/
def Runs (tokens : List Token) (code : Code) (position depth : Nat) (result : Result) (last : Nat) : Prop :=
  ∀ frames, Machine.Reaches tokens ⟨⟨position, depth⟩, code, frames⟩ ⟨⟨last, depth⟩, .done result, frames⟩

theorem runs_done : Runs tokens (.done result) position depth result position := fun _ => .refl _

/-- A call comes to its end if the routine does and what comes next does. -/
theorem Runs.call {after : Result → Code} (h : Runs tokens (routine.code tokens) position depth result last)
    (h' : Runs tokens (after result) last depth result' last') :
    Runs tokens (.call routine after) position depth result' last' := by
  intro frames
  have hcall := h (⟨⟨position, depth⟩, after⟩ :: frames)
  have hreturn : Machine.Reaches tokens
      ⟨⟨last, depth⟩, .done result, ⟨⟨position, depth⟩, after⟩ :: frames⟩
      ⟨⟨last', depth⟩, .done result', frames⟩ := .head rfl (h' frames)
  exact .head rfl (hcall.trans hreturn)

/-! ## Code and the outcome of a reader -/

/-- **The code agrees with the outcome of a reader**: it `Runs` to the same tree in front of the same tokens,
or to the same error. -/
def Agrees (tokens : List Token) (code : Code) (position depth : Nat) :
    Except ExprError (Expr × List Token) → Prop
  | .ok (tree, rest) => ∃ last, last ≤ tokens.length ∧ rest = tokens.drop last ∧
      Runs tokens code position depth (.ok tree) last
  | .error e => ∃ last, last ≤ tokens.length ∧ Runs tokens code position depth (.error e) last

theorem agrees_done (hle : position ≤ tokens.length) (tree : Expr) :
    Agrees tokens (.done (.ok tree)) position depth (.ok (tree, tokens.drop position)) :=
  ⟨_, hle, rfl, runs_done⟩

theorem agrees_error (hle : position ≤ tokens.length) (e : ExprError) :
    Agrees tokens (.done (.error e)) position depth (.error e) :=
  ⟨_, hle, runs_done⟩

/-- What comes to every end that some code comes to agrees with the same outcomes. -/
theorem Agrees.imp {position' depth' : Nat} (h : Agrees tokens code position depth outcome)
    (himp : ∀ result last, Runs tokens code position depth result last →
      Runs tokens code' position' depth' result last) : Agrees tokens code' position' depth' outcome := by
  cases outcome with
  | error e =>
      obtain ⟨last, hle, hruns⟩ := h
      exact ⟨last, hle, himp _ _ hruns⟩
  | ok read =>
      obtain ⟨last, hle, hrest, hruns⟩ := h
      exact ⟨last, hle, hrest, himp _ _ hruns⟩

theorem Agrees.look {after : Option Token → Code}
    (h : Agrees tokens (after (tokens.drop position).head?) position depth outcome) :
    Agrees tokens (.look after) position depth outcome := by
  rw [List.head?_drop] at h
  exact h.imp fun _ _ hruns frames => .head rfl (hruns frames)

/-- Code that looks and is then done leaves the tokens as they are. -/
theorem agrees_look_done {after : Option Token → Code} {tree : Expr} (hle : position ≤ tokens.length)
    (h : after (tokens.drop position).head? = .done (.ok tree)) :
    Agrees tokens (.look after) position depth (.ok (tree, tokens.drop position)) :=
  .look (h ▸ agrees_done hle tree)

theorem Agrees.advance (h : Agrees tokens code (position + 1) depth outcome) :
    Agrees tokens (.advance code) position depth outcome :=
  h.imp fun _ _ hruns frames => .head rfl (hruns frames)

theorem Agrees.goto (h : Agrees tokens (routine.code tokens) position depth outcome) :
    Agrees tokens (.goto routine) position depth outcome :=
  h.imp fun _ _ hruns frames => .head rfl (hruns frames)

theorem Agrees.call_done (h : Agrees tokens (routine.code tokens) position depth outcome) :
    Agrees tokens (.call routine .done) position depth outcome :=
  h.imp fun _ _ hruns => hruns.call runs_done

/-- With the tree of a routine that is called the code goes on behind the tokens of the tree, and its error
is returned at once. -/
theorem Agrees.call (h : Agrees tokens (routine.code tokens) position depth read)
    (herror : ∀ e, read = .error e → outcome = .error e)
    (hok : ∀ tree last, last ≤ tokens.length → read = .ok (tree, tokens.drop last) →
      Agrees tokens (next tree) last depth outcome) :
    Agrees tokens (.call routine (proceed next)) position depth outcome := by
  cases read with
  | error e =>
      obtain ⟨last, hle, hruns⟩ := h
      rw [herror e rfl]
      exact ⟨last, hle, hruns.call runs_done⟩
  | ok read =>
      obtain ⟨tree, rest⟩ := read
      obtain ⟨last, hle, rfl, hruns⟩ := h
      exact (hok tree last hle rfl).imp fun _ _ hruns' => hruns.call hruns'

/-! ## Routines and readers -/

/-- **A routine follows a reader** (`Agrees`) wherever so many levels are left. -/
def Follows (tokens : List Token) (levels : Nat) (routine : Routine) (reader : Reader) : Prop :=
  ∀ position depth, depth + levels = nestingLimit → position ≤ tokens.length →
    Agrees tokens (routine.code tokens) position depth (reader (tokens.drop position))

/-- At the limit nothing is read. -/
theorem follows_tooDeep (tokens : List Token) (routine : Routine) :
    Follows tokens 0 (.nested routine) fun _ => .error (.malformed .tooDeep) := by
  intro position depth hdepth hle
  have hroom : decide (depth < nestingLimit) = false := decide_eq_false (by omega)
  have hdone : Agrees tokens (.done (.error (.malformed .tooDeep))) position depth _ := agrees_error hle _
  refine hdone.imp fun result last hruns frames => .head rfl ?_
  rw [hroom]
  exact hruns frames

/-- One level down a routine follows the reader of the level below. -/
theorem Follows.nested (h : Follows tokens levels routine reader) :
    Follows tokens (levels + 1) (.nested routine) reader := by
  intro position depth hdepth hle
  have hroom : decide (depth < nestingLimit) = true := decide_eq_true (by omega)
  refine (h position (depth + 1) (by omega) hle).imp fun result last hruns frames => ?_
  have hinner := hruns (⟨⟨position, depth + 1⟩, fun result => .ascend (.done result)⟩ :: frames)
  -- the level that is added in front of the call is taken away behind it
  refine .head rfl ?_
  rw [hroom]
  exact .head rfl (.head rfl (hinner.trans (.head rfl (.head rfl (.refl _)))))

/-- **The level below is followed** (`Follows`) by the routines that are `nested`. -/
structure FollowsBelow (tokens : List Token) (levels : Nat) (below : Readers) : Prop where
  sum : Follows tokens levels (.nested .sum) below.sum
  signed : Follows tokens levels (.nested .signed) below.signed
  sound : below.Sound levels

/-- Behind a token that is there, the tokens that are left are those from the next place on. -/
theorem drop_eq_cons {token : Token} (h : tokens.drop position = token :: rest) :
    position + 1 ≤ tokens.length ∧ rest = tokens.drop (position + 1) := by
  have hlength := congrArg List.length h
  rw [List.length_drop, List.length_cons] at hlength
  refine ⟨by omega, ?_⟩
  rw [← List.drop_drop, h, List.drop_one, List.tail_cons]

/-! ## Parentheses, words and primaries -/

theorem close_agrees (hle : position ≤ tokens.length) (tree : Expr) :
    Agrees tokens ((Routine.close tree).code tokens) position depth
      (close (tree, tokens.drop position)) := by
  refine .look ?_
  cases hts : tokens.drop position with
  | nil => exact agrees_error hle _
  | cons token rest =>
      obtain ⟨hlt, rfl⟩ := drop_eq_cons hts
      cases token with
      | closing => exact .advance (agrees_done hlt tree)
      | _ => exact agrees_error hle _

section

variable (h : FollowsBelow tokens levels below)

include h

theorem enclosed_agrees (hdepth : depth + levels = nestingLimit) (hle : position ≤ tokens.length)
    (herror : ∀ e, readEnclosed below (tokens.drop position) = .error e → outcome = .error e)
    (hok : ∀ tree last, last ≤ tokens.length →
      readEnclosed below (tokens.drop position) = .ok (tree, tokens.drop last) →
      Agrees tokens (next tree) last depth outcome) :
    Agrees tokens (Routine.enclosed next) position depth outcome := by
  unfold readEnclosed at herror hok
  refine (h.sum position depth hdepth hle).call (fun e hsum => herror e (by rw [hsum])) ?_
  intro tree last hlast hsum
  rw [hsum] at herror hok
  exact (close_agrees hlast tree).call herror hok

theorem word_agrees (hdepth : depth + levels = nestingLimit) (hle : position ≤ tokens.length)
    (letters : String) :
    Agrees tokens (Routine.word letters) position depth
      (readWord below letters (tokens.drop position)) := by
  unfold Routine.word readWord
  cases Constant.named? letters with
  | some name => exact agrees_done hle _
  | none =>
      cases Function.named? letters with
      | none => exact agrees_error hle _
      | some name =>
          refine .look ?_
          cases hts : tokens.drop position with
          | nil => exact agrees_error hle _
          | cons token rest =>
              obtain ⟨hlt, rfl⟩ := drop_eq_cons hts
              cases token with
              | opening =>
                  refine .advance (enclosed_agrees h hdepth hlt (fun e hread => by simp only [hread]) ?_)
                  intro argument last hlast hread
                  simp only [hread]
                  exact agrees_done hlast _
              | _ => exact agrees_error hle _

theorem primary_follows : Follows tokens levels .primary (readPrimary below) := by
  intro position depth hdepth hle
  refine .look ?_
  cases hts : tokens.drop position with
  | nil => exact agrees_error hle _
  | cons token rest =>
      obtain ⟨hlt, rfl⟩ := drop_eq_cons hts
      refine .advance ?_
      cases token with
      | number value => exact agrees_done hlt _
      | «variable» => exact agrees_done hlt _
      | opening =>
          refine enclosed_agrees h hdepth hlt (fun e hread => hread) ?_
          intro tree last hlast hread
          rw [readPrimary, hread]
          exact agrees_done hlast _
      | word letters => exact word_agrees h hdepth hlt letters
      | _ => exact agrees_error hlt _

/-! ## Powers and signs -/

theorem power_follows : Follows tokens levels .power (readPower below) := by
  intro position depth hdepth hle
  unfold readPower
  refine (primary_follows h position depth hdepth hle).call (fun e hread => by rw [hread]) ?_
  intro base last hlast hread
  rw [hread]
  have hdone : Agrees tokens (.done (.ok base)) last depth (.ok (base, tokens.drop last)) :=
    agrees_done hlast base
  refine .look ?_
  cases hts : tokens.drop last with
  | nil =>
      rw [hts] at hdone
      exact hdone
  | cons token rest =>
      obtain ⟨hlt, rfl⟩ := drop_eq_cons hts
      rw [hts] at hdone
      cases token with
      | operator sign =>
          by_cases hpow : sign = '^'
          · subst hpow
            have hbelow := h.signed (last + 1) depth hdepth hlt
            refine .advance (hbelow.call (fun e hread => by simp only [hread]) ?_)
            intro exponent last hlast hread
            simp only [hread]
            exact agrees_done hlast _
          · simpa [hpow] using hdone
      | _ => exact hdone

theorem signed_follows : Follows tokens levels .signed (readSigned below) := by
  intro position depth hdepth hle
  have hpower := power_follows h position depth hdepth hle
  refine .look ?_
  cases hts : tokens.drop position with
  | nil =>
      rw [hts] at hpower
      exact hpower.call_done
  | cons token rest =>
      obtain ⟨hlt, rfl⟩ := drop_eq_cons hts
      rw [hts] at hpower
      have hbelow := h.signed (position + 1) depth hdepth hlt
      cases token with
      | operator sign =>
          by_cases hminus : sign = '-'
          · subst hminus
            refine .advance (hbelow.call (fun e hread => by simp only [readSigned, hread]) ?_)
            intro operand last hlast hread
            simp only [readSigned, hread]
            exact agrees_done hlast _
          by_cases hplus : sign = '+'
          · subst hplus
            exact .advance hbelow.call_done
          · simpa [readSigned, hminus, hplus] using hpower.call_done
      | _ => exact hpower.call_done

end

/-! ## Rounds

A loop has no limit. Each of its rounds takes a token, so that it comes to an end, and the limit of the
reader is never reached before that. -/

/-- **A loop goes round** with the operators that `next?` finds, and is done with what has been read where
there is none. -/
structure Loops (tokens : List Token) (next? : List Token → Option (Char × List Token))
    (operand : Routine) (loop : Expr → Routine) : Prop where
  stops : ∀ left position depth, position ≤ tokens.length → next? (tokens.drop position) = none →
    Agrees tokens ((loop left).code tokens) position depth (.ok (left, tokens.drop position))
  turns : ∀ left position depth sign afterOp, next? (tokens.drop position) = some (sign, afterOp) →
    ∃ place, place ≤ tokens.length ∧ afterOp = tokens.drop place ∧
      ∀ outcome, Agrees tokens (Routine.round operand loop sign left) place depth outcome →
        Agrees tokens ((loop left).code tokens) position depth outcome

theorem loops_sum (tokens : List Token) : Loops tokens sumOperator? .product .sumRounds where
  stops := by
    intro left position depth hle hnone
    refine agrees_look_done hle ?_
    cases hts : tokens.drop position with
    | nil => rfl
    | cons token rest =>
        rw [hts] at hnone
        split <;> simp_all [sumOperator?]
  turns := by
    intro left position depth sign afterOp hsome
    obtain ⟨hsign, hts⟩ := sumOperator?_cases hsome
    obtain ⟨hlt, rfl⟩ := drop_eq_cons hts
    refine ⟨position + 1, hlt, rfl, fun outcome hround => .look ?_⟩
    rw [hts]
    rcases hsign with rfl | rfl <;> exact .advance hround

theorem loops_product (tokens : List Token) :
    Loops tokens productOperator? .signed .productRounds where
  stops := by
    intro left position depth hle hnone
    refine agrees_look_done hle ?_
    cases hts : tokens.drop position with
    | nil => rfl
    | cons token rest =>
        rw [hts] at hnone
        split <;> simp_all [productOperator?]
  turns := by
    intro left position depth sign afterOp hsome
    rcases productOperator?_cases hsome with ⟨hsign, hts⟩ | ⟨rfl, hts, token, rest, hbegins, rfl⟩
    · obtain ⟨hlt, rfl⟩ := drop_eq_cons hts
      refine ⟨position + 1, hlt, rfl, fun outcome hround => .look ?_⟩
      rw [hts]
      rcases hsign with rfl | rfl <;> exact .advance hround
    · -- the operand begins where the loop stands: no token is taken in front of it
      obtain ⟨hlt, -⟩ := drop_eq_cons hts
      refine ⟨position, by omega, hts.symm, fun outcome hround => .look ?_⟩
      rw [hts]
      rcases beginsFactor_cases hbegins with rfl | ⟨letters, rfl⟩ | rfl <;> exact hround

section

variable {next? : List Token → Option (Char × List Token)} {operand : Routine} {loop : Expr → Routine}
  (hloops : Loops tokens next? operand loop) (hoperand : Follows tokens levels operand reader)
  (hadv : Advances next? reader) (hnil : next? [] = none)

include hloops hoperand hadv hnil

/-- Induction on the limit, which is never less than the number of tokens that are left. -/
theorem rounds_agree {limit : Nat} (hdepth : depth + levels = nestingLimit)
    (hle : position ≤ tokens.length) (hlimit : (tokens.drop position).length ≤ limit) (left : Expr) :
    Agrees tokens ((loop left).code tokens) position depth
      (Reader.rounds next? reader limit left (tokens.drop position)) := by
  induction limit generalizing position left with
  | zero =>
      have hnone : next? (tokens.drop position) = none := by
        rw [List.length_eq_zero_iff.mp (Nat.le_zero.mp hlimit), hnil]
      exact hloops.stops left position depth hle hnone
  | succ limit ih =>
      unfold Reader.rounds
      cases hnext : next? (tokens.drop position) with
      | none => exact hloops.stops left position depth hle hnext
      | some found =>
          obtain ⟨sign, afterOp⟩ := found
          obtain ⟨place, hplace, rfl, hturn⟩ := hloops.turns left position depth sign _ hnext
          apply hturn
          refine (hoperand place depth hdepth hplace).call (fun e hread => by simp only [hread]) ?_
          intro right last hlast hread
          simp only [hread]
          have hlt := hadv hnext hread
          exact .goto (ih hlast (by omega) _)

theorem chain_follows (hcode : routine.code tokens = .call operand (proceed fun left => .goto (loop left))) :
    Follows tokens levels routine (Reader.chain next? reader) := by
  intro position depth hdepth hle
  rw [hcode]
  unfold Reader.chain
  refine (hoperand position depth hdepth hle).call (fun e hread => by rw [hread]) ?_
  intro left last hlast hread
  rw [hread]
  exact .goto (rounds_agree hloops hoperand hadv hnil hdepth hlast (Nat.le_refl _) left)

end

theorem product_follows (h : FollowsBelow tokens levels below) :
    Follows tokens levels .product (readProduct below) :=
  chain_follows (loops_product tokens) (signed_follows h)
    (productOperator?_advances (readSigned_sound h.sound)) rfl rfl

theorem sum_follows (h : FollowsBelow tokens levels below) :
    Follows tokens levels .sum (readSum below) :=
  chain_follows (loops_sum tokens) (product_follows h)
    (sumOperator?_advances (readProduct_sound h.sound)) rfl rfl

/-! ## All levels -/

/-- **Every level is followed**: induction on the levels that `Readers.allowing` has left. -/
theorem follows_below (tokens : List Token) (levels : Nat) :
    FollowsBelow tokens levels (Readers.allowing levels) := by
  induction levels with
  | zero => exact ⟨follows_tooDeep tokens .sum, follows_tooDeep tokens .signed, Readers.allowing_sound 0⟩
  | succ levels ih =>
      exact ⟨(sum_follows ih).nested, (signed_follows ih).nested, Readers.allowing_sound (levels + 1)⟩

/-- The whole ends as reading it ends, and with a tree no token is left. -/
theorem whole_agrees (tokens : List Token) :
    Agrees tokens (Routine.whole.code tokens) 0 0 ((Expr.ofTokens tokens).map fun tree => (tree, [])) := by
  simp only [Routine.code, Expr.ofTokens]
  split
  · exact agrees_error (Nat.zero_le _) _
  · split
    · exact agrees_error (Nat.zero_le _) _
    · have hsum := sum_follows (follows_below tokens nestingLimit) 0 0 (Nat.zero_add _) (Nat.zero_le _)
      rw [List.drop_zero] at hsum
      refine hsum.call (fun e hread => by rw [hread]; rfl) fun tree last hlast hread => .look ?_
      have hdone : Agrees tokens (.done (.ok tree)) last 0 (.ok (tree, tokens.drop last)) :=
        agrees_done hlast tree
      rw [hread]
      cases hts : tokens.drop last with
      | nil =>
          rw [hts] at hdone
          exact hdone
      | cons token rest => exact agrees_error hlast _

theorem Runs.reaches_start (h : Runs tokens (Routine.whole.code tokens) 0 0 result last) :
    Machine.Reaches tokens .start ⟨⟨last, 0⟩, .done result, []⟩ := by
  have hcall : Runs tokens (.call .whole .done) 0 0 result last := h.call runs_done
  exact hcall []

/-- **The machine halts** with the outcome of `Expr.ofTokens`, and where that is a tree, behind the last
token. -/
theorem machine_halts (tokens : List Token) :
    ∃ last, last ≤ tokens.length ∧ (∀ tree, Expr.ofTokens tokens = .ok tree → last = tokens.length) ∧
      Machine.Reaches tokens .start ⟨⟨last, 0⟩, .done (Expr.ofTokens tokens), []⟩ := by
  have hwhole := whole_agrees tokens
  cases hread : Expr.ofTokens tokens with
  | error e =>
      rw [hread] at hwhole
      obtain ⟨last, hlast, hruns⟩ := hwhole
      exact ⟨last, hlast, nofun, hruns.reaches_start⟩
  | ok tree =>
      rw [hread] at hwhole
      obtain ⟨last, hlast, hrest, hruns⟩ := hwhole
      have hend : tokens.length ≤ last := List.drop_eq_nil_iff.mp hrest.symm
      exact ⟨last, hlast, fun _ _ => Nat.le_antisymm hlast hend, hruns.reaches_start⟩

end Calculator.Descent
