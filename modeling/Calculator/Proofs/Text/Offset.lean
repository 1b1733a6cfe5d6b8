import Mathlib.Data.List.Basic

/-!
# `Proofs.Text.Offset` — places in a text, in bytes

A text is stored in bytes, from one to four for each character, and a place in it is then an offset in
bytes. Not every number is one: an offset must not be inside a character nor behind the text, and a text
cannot be cut there. Here cutting is partial for that reason, and so are inserting and removing, which cut
first. Counting characters is safe as long as every count is turned into the offset of that character.

## Contents

* `byteSize`, `byteOffset` — from characters to bytes
* `IsBoundary` — the numbers that are places in a text
* `splitAtByte?`, `insertAtByte?`, `removeAtByte?` — editing at an offset
* `insertAtByte?_byteOffset`, `removeAtByte?_byteOffset` — editing in front of a character
-/

namespace Calculator.Text

/-! ## From characters to bytes -/

/-- The number of bytes that a text takes. -/
def byteSize (text : List Char) : Nat := (String.ofList text).utf8ByteSize

/-- Where each character begins if the first one begins at `start`. -/
def byteOffsets (start : Nat) : List Char → List Nat
  | [] => []
  | c :: rest => start :: byteOffsets (start + c.utf8Size) rest

/-- Where the character number `n` begins, or where the text ends if it has no such character. -/
def byteOffset (text : List Char) (n : Nat) : Nat :=
  (byteOffsets 0 text)[n]?.getD (byteSize text)

section

variable {text left right : List Char} {n : Nat}

theorem byteSize_nil : byteSize [] = 0 := rfl

theorem byteSize_cons (c : Char) (text : List Char) :
    byteSize (c :: text) = c.utf8Size + byteSize text := by
  unfold byteSize
  rw [String.ofList_cons, String.utf8ByteSize_append, String.utf8ByteSize_singleton]

theorem byteSize_append (left right : List Char) :
    byteSize (left ++ right) = byteSize left + byteSize right := by
  unfold byteSize
  rw [String.ofList_append, String.utf8ByteSize_append]

theorem byteOffsets_getElem?_getD (text : List Char) (start n : Nat) :
    (byteOffsets start text)[n]?.getD (start + byteSize text) = start + byteSize (text.take n) := by
  induction text generalizing start n with
  | nil => simp [byteOffsets]
  | cons c text ih =>
      cases n with
      | zero => simp [byteOffsets, byteSize_nil]
      | succ n =>
          rw [byteOffsets, List.getElem?_cons_succ, List.take_succ_cons, byteSize_cons,
            byteSize_cons, ← Nat.add_assoc, ih, Nat.add_assoc]

/-- A character begins where the ones before it end. -/
theorem byteOffset_eq (text : List Char) (n : Nat) :
    byteOffset text n = byteSize (text.take n) := by
  have h := byteOffsets_getElem?_getD text 0 n
  rwa [Nat.zero_add, Nat.zero_add] at h

theorem byteOffset_append (left right : List Char) :
    byteOffset (left ++ right) left.length = byteSize left := by
  rw [byteOffset_eq, List.take_left]

/-! ## Boundaries -/

/-- Whether an offset is where a character begins or where the text ends. -/
def IsBoundary (text : List Char) (n : Nat) : Prop :=
  (⟨n⟩ : String.Pos.Raw).IsValid (String.ofList text)

theorem isBoundary_iff : IsBoundary text n ↔ ∃ i, n = byteSize (text.take i) :=
  String.Pos.Raw.isValid_ofList

theorem isBoundary_byteOffset (text : List Char) (n : Nat) :
    IsBoundary text (byteOffset text n) :=
  isBoundary_iff.mpr ⟨n, byteOffset_eq text n⟩

/-- A character begins in front of the end. -/
theorem byteOffset_lt (h : n < text.length) : byteOffset text n < byteSize text := by
  have hsize := byteSize_append (text.take n) (text.drop n)
  rw [List.take_append_drop, List.drop_eq_getElem_cons h, byteSize_cons] at hsize
  rw [byteOffset_eq, hsize]
  have hpos := text[n].utf8Size_pos
  omega

/-! ## Editing at an offset -/

/-- The two parts of a text at an offset. There are none if the offset is inside a character or behind
the text. -/
def splitAtByte? : List Char → Nat → Option (List Char × List Char)
  | text, 0 => some ([], text)
  | [], _ + 1 => none
  | c :: rest, n + 1 =>
    if c.utf8Size ≤ n + 1 then
      (splitAtByte? rest (n + 1 - c.utf8Size)).map fun parts => (c :: parts.1, parts.2)
    else none

/-- Puts a character at an offset. -/
def insertAtByte? (text : List Char) (n : Nat) (c : Char) : Option (List Char) :=
  (splitAtByte? text n).map fun parts => parts.1 ++ c :: parts.2

/-- Removes the character at an offset. There has to be one. -/
def removeAtByte? (text : List Char) (n : Nat) : Option (List Char) :=
  match splitAtByte? text n with
  | some (left, _ :: right) => some (left ++ right)
  | _ => none

theorem splitAtByte?_zero (text : List Char) : splitAtByte? text 0 = some ([], text) := by
  cases text <;> rfl

theorem splitAtByte?_append (left right : List Char) :
    splitAtByte? (left ++ right) (byteSize left) = some (left, right) := by
  induction left with
  | nil => exact splitAtByte?_zero right
  | cons c left ih =>
      obtain ⟨n, hn⟩ := Nat.exists_eq_succ_of_ne_zero (Nat.ne_of_gt c.utf8Size_pos)
      have hsize : byteSize (c :: left) = n + byteSize left + 1 := by rw [byteSize_cons]; omega
      have hrest : n + byteSize left + 1 - c.utf8Size = byteSize left := by omega
      rw [hsize, List.cons_append, splitAtByte?, if_pos (by omega), hrest, ih]
      rfl

/-! ## Editing in front of a character -/

/-- A character can be put in front of each one, and behind the last. -/
theorem insertAtByte?_byteOffset (left right : List Char) (c : Char) :
    insertAtByte? (left ++ right) (byteOffset (left ++ right) left.length) c =
      some (left ++ c :: right) := by
  rw [insertAtByte?, byteOffset_append, splitAtByte?_append]
  rfl

/-- Each character can be removed. -/
theorem removeAtByte?_byteOffset (left right : List Char) (c : Char) :
    removeAtByte? (left ++ c :: right) (byteOffset (left ++ c :: right) left.length) =
      some (left ++ right) := by
  rw [removeAtByte?, byteOffset_append, splitAtByte?_append]

end

end Calculator.Text
