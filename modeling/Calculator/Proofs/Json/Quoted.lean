import Calculator.Json.Quoted
import Mathlib.Data.List.Basic
import Mathlib.Tactic

/-!
# `Proofs.Json.Quoted` — strings are read as they are written

A string is written one piece after the other, and every piece can be told from what follows it: an escape
has a fixed length that its mark decides, and any other character stands for itself. So the reader takes off
one piece at a time until it meets the closing quote, which no piece begins with.

## Contents

* `Piece.Printable`, `takePiece?_source` — one piece
* `spanPieces?_source` — all of them
* `printable_ofChar`, `textOf?_ofChar` — the pieces of a text
-/

namespace Calculator.Json

/-- **A piece as it can be written**: a control has an `escapeMark?`, and a `unit` has sixteen bits. -/
def Piece.Printable : Piece → Prop
  | .character c => escapeMark? c = none → isRawControl c = false
  | .unit code => code < 0x10000

section

variable {c mark : Char} {code : Nat} {piece : Piece} {pieces : List Piece} {rest : List Char}

/-! ## Escapes -/

/-- What a short escape is written for is what it is read as. -/
theorem shortEscape?_of_mark (h : escapeMark? c = some mark) :
    shortEscape? mark = some c ∧ mark ≠ 'u' := by
  have hall : ∀ escape ∈ shortEscapes, shortEscape? escape.2 = some escape.1 ∧ escape.2 ≠ 'u' := by
    decide
  obtain ⟨before, after, heq, -⟩ := List.lookup_eq_some_iff.mp h
  exact hall (c, mark) (heq ▸ List.mem_append_right _ List.mem_cons_self)

theorem ne_quote_of_mark (h : escapeMark? c = none) : c ≠ '"' ∧ c ≠ '\\' := by
  have hall := List.lookup_eq_none_iff.mp h
  have hquote := hall ('"', '"') (by decide)
  have hslash := hall ('\\', '\\') (by decide)
  exact ⟨by simpa using hquote, by simpa using hslash⟩

theorem source_of_mark (h : escapeMark? c = some mark) : (Piece.character c).source = ['\\', mark] := by
  simp only [Piece.source, h]

theorem source_of_no_mark (h : escapeMark? c = none) : (Piece.character c).source = [c] := by
  simp only [Piece.source, h]

theorem hexDigit?_digitChar : ∀ digit < 16, hexDigit? (Nat.digitChar digit) = some digit := by decide

/-- The four digits of a unit have its value. -/
theorem hexValue?_unitDigits (h : code < 0x10000) : hexValue? (unitDigits code) = some code := by
  have hdigit : ∀ n, hexDigit? (Nat.digitChar (n % 0x10)) = some (n % 0x10) := fun n =>
    hexDigit?_digitChar _ (Nat.mod_lt _ (by decide))
  unfold hexValue? unitDigits
  simp only [List.map_cons, List.map_nil, List.foldlM_cons, List.foldlM_nil, hdigit, Option.map_some,
    Option.bind_eq_bind, Option.bind_some, Option.pure_def, Option.some.injEq]
  omega

/-! ## Pieces -/

theorem takePiece?_plain (hslash : c ≠ '\\') (hcontrol : isRawControl c = false) (rest : List Char) :
    takePiece? (c :: rest) = some (.character c, 1) := by
  unfold takePiece?
  split
  · rename_i heq
    exact absurd (List.cons.inj heq).1 hslash
  · rename_i heq
    exact absurd (List.cons.inj heq).1 hslash
  · rename_i heq
    obtain ⟨rfl, -⟩ := List.cons.inj heq
    exact if_neg (by simp [hslash, hcontrol])
  · rename_i heq
    exact absurd heq (List.cons_ne_nil _ _)

theorem takePiece?_escape (h : mark ≠ 'u') (rest : List Char) :
    takePiece? ('\\' :: mark :: rest) = (shortEscape? mark).map fun c => (.character c, 2) := by
  unfold takePiece?
  split
  · rename_i heq
    exact absurd (List.cons.inj (List.cons.inj heq).2).1 h
  · rename_i heq
    rw [(List.cons.inj (List.cons.inj heq).2).1]
  · rename_i hne heq
    obtain ⟨rfl, rfl⟩ := List.cons.inj heq
    exact (hne mark rest rfl rfl).elim
  · rename_i heq
    exact absurd heq (List.cons_ne_nil _ _)

/-- **A piece is read as it is written** by `source`, whatever follows it. -/
theorem takePiece?_source (h : piece.Printable) (rest : List Char) :
    takePiece? (piece.source ++ rest) = some (piece, piece.source.length) := by
  cases piece with
  | character c =>
      cases hmark : escapeMark? c with
      | some mark =>
          obtain ⟨hshort, hne⟩ := shortEscape?_of_mark hmark
          rw [source_of_mark hmark]
          refine (takePiece?_escape hne rest).trans ?_
          rw [hshort]
          rfl
      | none =>
          rw [source_of_no_mark hmark]
          exact takePiece?_plain (ne_quote_of_mark hmark).2 (h hmark) rest
  | unit code =>
      have hvalue := hexValue?_unitDigits h
      show (hexValue? (unitDigits code)).map (fun code => (Piece.unit code, 6)) = _
      rw [hvalue]
      rfl

/-- No piece begins with a quote, and none is empty. -/
theorem exists_cons_source (piece : Piece) :
    ∃ c rest, piece.source = c :: rest ∧ c ≠ '"' := by
  cases piece with
  | character c =>
      cases hmark : escapeMark? c with
      | some mark => exact ⟨'\\', [mark], source_of_mark hmark, by decide⟩
      | none => exact ⟨c, [], source_of_no_mark hmark, (ne_quote_of_mark hmark).1⟩
  | unit code => exact ⟨'\\', _, rfl, by decide⟩

/-- **All pieces** are read by `spanPieces?` up to the closing quote. -/
theorem spanPieces?_source (h : ∀ piece ∈ pieces, piece.Printable) {steps : Nat}
    (hsteps : pieces.length < steps) (rest : List Char) :
    spanPieces? steps (pieces.flatMap Piece.source ++ '"' :: rest) = some (pieces, rest) := by
  induction pieces generalizing steps with
  | nil =>
      obtain ⟨steps, rfl⟩ := Nat.exists_eq_add_one_of_ne_zero (Nat.ne_zero_of_lt hsteps)
      rfl
  | cons piece pieces ih =>
      obtain ⟨steps, rfl⟩ := Nat.exists_eq_add_one_of_ne_zero (Nat.ne_zero_of_lt hsteps)
      obtain ⟨c, tail, hsource, hquote⟩ := exists_cons_source piece
      have htake := takePiece?_source (h piece List.mem_cons_self)
        (pieces.flatMap Piece.source ++ '"' :: rest)
      have hrest := ih (fun p hp => h p (List.mem_cons_of_mem _ hp)) (Nat.lt_of_succ_lt_succ hsteps)
      rw [List.flatMap_cons, List.append_assoc, spanPieces?, htake]
      have hhead : (piece.source ++ (pieces.flatMap Piece.source ++ '"' :: rest)).head? ≠ some '"' := by
        rw [hsource]
        simpa using hquote
      rw [if_neg hhead]
      simp only [List.drop_left, hrest, Option.map_some]

theorem length_le_length_source (pieces : List Piece) :
    pieces.length ≤ (pieces.flatMap Piece.source).length := by
  induction pieces with
  | nil => exact Nat.le_refl 0
  | cons piece pieces ih =>
      obtain ⟨c, tail, hsource, -⟩ := exists_cons_source piece
      rw [List.flatMap_cons, List.length_append, List.length_cons, hsource, List.length_cons]
      omega

/-! ## Texts -/

theorem printable_ofChar (c : Char) : (Piece.ofChar c).Printable := by
  unfold Piece.ofChar
  by_cases hunit : isRawControl c = true ∧ escapeMark? c = none
  · rw [if_pos hunit]
    have hlt : c.toNat < 0x20 := of_decide_eq_true hunit.1
    show c.toNat < 0x10000
    omega
  · rw [if_neg hunit]
    intro hmark
    simpa [hmark] using hunit

theorem textOf?_unit (h : code < 0xD800) (pieces : List Piece) :
    textOf? (.unit code :: pieces) = (textOf? pieces).map (Char.ofNat code :: ·) := by
  have hhigh : isHighHalf code = false := by
    simp only [isHighHalf, Bool.and_eq_false_iff, decide_eq_false_iff_not]
    omega
  have hlow : isLowHalf code = false := by
    simp only [isLowHalf, Bool.and_eq_false_iff, decide_eq_false_iff_not]
    omega
  cases pieces with
  | nil => simp [textOf?, hhigh, hlow]
  | cons piece pieces =>
      cases piece with
      | character c => simp [textOf?, hhigh, hlow]
      | unit other => simp [textOf?, hhigh, hlow]

/-- **The pieces of a text** stand for the text: `textOf?` gives it back. -/
theorem textOf?_ofChar (text : List Char) : textOf? (text.map Piece.ofChar) = some text := by
  induction text with
  | nil => rfl
  | cons c text ih =>
      rw [List.map_cons, Piece.ofChar]
      by_cases hunit : isRawControl c = true ∧ escapeMark? c = none
      · have hlt : c.toNat < 0x20 := of_decide_eq_true hunit.1
        rw [if_pos hunit, textOf?_unit (by omega), ih, Option.map_some, Char.ofNat_toNat]
      · rw [if_neg hunit, textOf?, ih, Option.map_some]

end

end Calculator.Json
