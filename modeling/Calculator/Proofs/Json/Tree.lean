import Calculator.Json.Tree
import Calculator.Proofs.Json.Quoted
import Calculator.Proofs.Number.ReadBack

/-!
# `Proofs.Json.Tree` — documents are read as they are written

The reader has to see where a value ends without having been told. A list, a record and a string end with a
character of their own. A numeral ends where it cannot go on, so what follows it must be nothing that could
belong to it; between values there are only commas and closing brackets and braces, and these will do. What
is proved of a value is therefore that it is read whatever stands behind it, as long as that is one of them.

The reader counts its steps down from twice the length of the document. A value needs two of them for every
character that it is written with at most, which is the form that passes from the parts to the whole.

## Contents

* `Numeral.Printable`, `spanNumeral?_source` — numerals
* `EndsValue`, `ReadsBack` — what may follow a value, and to be read whatever follows
* `readElements?_source`, `readMembers?_source` — the parts of lists and records
* `Printable.parse?` — documents
-/

namespace Calculator.Json

/-- **A numeral as it can be written**: digits around the point, and no zero in front of others
(`isWholePart`). -/
structure Numeral.Printable (numeral : Numeral) : Prop where
  whole : isWholePart numeral.whole = true
  whole_digits : ∀ c ∈ numeral.whole, c.isDigit = true
  fraction_digits : ∀ c ∈ numeral.fraction, c.isDigit = true

/-- What may follow a value: nothing, or what separates or closes. -/
def EndsValue (rest : List Char) : Prop := ∀ c ∈ rest.head?, c = ',' ∨ c = ']' ∨ c = '}'

/-- **A document whose parts can be written**: its numerals and pieces are `Printable`. -/
inductive Printable : Json → Prop
  | null : Printable .null
  | bool (value : Bool) : Printable (.bool value)
  | number {numeral : Numeral} (h : numeral.Printable) : Printable (.number numeral)
  | string {pieces : List Piece} (h : ∀ piece ∈ pieces, piece.Printable) : Printable (.string pieces)
  | array {elements : List Json} (h : ∀ element ∈ elements, Printable element) :
      Printable (.array elements)
  | object {members : List (List Piece × Json)}
      (names : ∀ member ∈ members, ∀ piece ∈ member.1, piece.Printable)
      (values : ∀ member ∈ members, Printable member.2) : Printable (.object members)

section

variable {numeral : Numeral} {json : Json} {rest digits : List Char} {c : Char} {steps : Nat}

/-! ## Numerals -/

theorem EndsValue.of_cons (h : c = ',' ∨ c = ']' ∨ c = '}') (rest : List Char) : EndsValue (c :: rest) := by
  intro first hfirst
  obtain rfl : c = first := by simpa using hfirst
  exact h

theorem endsValue_nil : EndsValue [] := by
  intro c hc
  exact absurd hc (by simp)

/-- Nothing that follows a value goes on with a numeral. -/
theorem EndsValue.head_ne (h : EndsValue rest) :
    ∀ c ∈ rest.head?, c.isDigit = false ∧ c ≠ '.' ∧ c ≠ 'e' ∧ c ≠ 'E' := by
  intro c hc
  rcases h c hc with rfl | rfl | rfl
  · decide
  · decide
  · decide

/-- An exponent is read with its sign. -/
theorem spanExponent?_integer (exponent : Int) (h : EndsValue rest) :
    spanExponent? ('e' :: (Decimal.integer exponent ++ rest)) = some (some exponent, rest) := by
  have hspan : ∀ n, spanDigits (Nat.toDigits 10 n ++ rest) = (Nat.toDigits 10 n, rest) := fun n =>
    spanDigits_append (fun _ hc => Nat.isDigit_of_mem_toDigits (by decide) (by decide) hc)
      fun c hc => (h.head_ne c hc).1
  cases exponent with
  | ofNat n =>
      obtain ⟨first, tail, hdigits⟩ := List.exists_cons_of_ne_nil (Nat.toDigits_ne_nil (b := 10) (n := n))
      have hfirst : first.isDigit = true :=
        Nat.isDigit_of_mem_toDigits (b := 10) (n := n) (by decide) (by decide) (by simp [hdigits])
      have hsign : takeSign (Nat.toDigits 10 n ++ rest) = (false, Nat.toDigits 10 n ++ rest) := by
        rw [hdigits]
        exact takeSign_of_isDigit hfirst _
      simp only [Decimal.integer, spanExponent?, hsign, hspan, Nat.toDigits_ne_nil, true_or, if_true,
        if_false, Bool.false_eq_true, Nat.ofDigitChars_ten_toDigits]
      rfl
  | negSucc n =>
      have hsign : takeSign ('-' :: (Nat.toDigits 10 (n + 1) ++ rest)) =
          (true, Nat.toDigits 10 (n + 1) ++ rest) := rfl
      simp only [Decimal.integer, List.cons_append, spanExponent?, hsign, hspan, Nat.toDigits_ne_nil,
        true_or, if_true, if_false, Nat.ofDigitChars_ten_toDigits]
      rfl

/-- The exponent as it is written, if there is one. -/
def exponentText (exponent : Option Int) : List Char :=
  match exponent with
  | none => []
  | some exponent => 'e' :: Decimal.integer exponent

/-- The fraction as it is written with its point, if there is one. -/
def pointedText (fraction : List Char) : List Char := if fraction = [] then [] else '.' :: fraction

theorem source_eq (numeral : Numeral) :
    numeral.source = signed numeral.negative
      (numeral.whole ++ pointedText numeral.fraction ++ exponentText numeral.exponent) := rfl

theorem spanExponent?_source (exponent : Option Int) (h : EndsValue rest) :
    spanExponent? (exponentText exponent ++ rest) = some (exponent, rest) := by
  cases exponent with
  | none =>
      cases rest with
      | nil => rfl
      | cons c rest =>
          obtain ⟨-, -, hlower, hupper⟩ := h.head_ne c rfl
          exact if_neg (not_or.mpr ⟨hlower, hupper⟩)
  | some exponent => exact spanExponent?_integer exponent h

/-- Behind the digits of a numeral there is no other digit, and no other point. -/
theorem head_exponentText (exponent : Option Int) (h : EndsValue rest) :
    ∀ c ∈ (exponentText exponent ++ rest).head?, c.isDigit = false ∧ c ≠ '.' := by
  cases exponent with
  | none =>
      intro c hc
      obtain ⟨hdigit, hpoint, -⟩ := h.head_ne c hc
      exact ⟨hdigit, hpoint⟩
  | some exponent =>
      intro c hc
      obtain rfl : 'e' = c := by simpa [exponentText] using hc
      decide

theorem spanFraction?_source (hdigits : ∀ c ∈ digits, c.isDigit = true)
    (hrest : ∀ c ∈ rest.head?, c.isDigit = false ∧ c ≠ '.') :
    spanFraction? (pointedText digits ++ rest) = some (digits, rest) := by
  unfold pointedText
  by_cases hnil : digits = []
  · rw [if_pos hnil, hnil, List.nil_append]
    unfold spanFraction?
    split
    · exact absurd rfl (hrest '.' rfl).2
    · rfl
  · have hspan := spanDigits_append hdigits fun c hc => (hrest c hc).1
    simp only [List.cons_append, spanFraction?, hspan, hnil, if_false]

theorem head_pointedText (hrest : ∀ c ∈ rest.head?, c.isDigit = false ∧ c ≠ '.') (digits : List Char) :
    ∀ c ∈ (pointedText digits ++ rest).head?, c.isDigit = false := by
  unfold pointedText
  by_cases hnil : digits = []
  · rw [if_pos hnil, List.nil_append]
    exact fun c hc => (hrest c hc).1
  · rw [if_neg hnil]
    intro c hc
    obtain rfl : '.' = c := by simpa using hc
    decide

theorem Numeral.Printable.exists_cons (h : numeral.Printable) :
    ∃ c rest, numeral.whole = c :: rest ∧ c.isDigit = true := by
  cases hwhole : numeral.whole with
  | nil =>
      have hpart := h.whole
      rw [hwhole] at hpart
      exact absurd hpart Bool.false_ne_true
  | cons c rest => exact ⟨c, rest, rfl, h.whole_digits c (hwhole ▸ List.mem_cons_self)⟩

theorem takeMinus_signed (h : c.isDigit = true) (negative : Bool) (rest : List Char) :
    takeMinus (signed negative (c :: rest)) = (negative, c :: rest) := by
  cases negative with
  | true => rfl
  | false =>
      show takeMinus (c :: rest) = _
      unfold takeMinus
      split
      · rename_i heq
        rw [(List.cons.inj heq).1] at h
        exact absurd h (by decide)
      · rfl

/-- **A numeral is read as it is written** by `source`, in front of what `EndsValue` lets follow. -/
theorem spanNumeral?_source (h : numeral.Printable) (hrest : EndsValue rest) :
    spanNumeral? (numeral.source ++ rest) = some (numeral, rest) := by
  obtain ⟨first, tail, hwhole, hfirst⟩ := h.exists_cons
  have hbehind := head_exponentText numeral.exponent hrest
  have hexponent := spanExponent?_source numeral.exponent hrest
  have hfraction := spanFraction?_source h.fraction_digits hbehind
  have hspan := spanDigits_append h.whole_digits (head_pointedText hbehind numeral.fraction)
  have hsource : numeral.source ++ rest = signed numeral.negative
      (numeral.whole ++ (pointedText numeral.fraction ++ (exponentText numeral.exponent ++ rest))) := by
    rw [source_eq]
    cases numeral.negative <;> simp [signed]
  have hsign := takeMinus_signed hfirst numeral.negative
    (tail ++ (pointedText numeral.fraction ++ (exponentText numeral.exponent ++ rest)))
  rw [← List.cons_append, ← hwhole] at hsign
  rw [hsource]
  unfold spanNumeral?
  simp only [hsign, hspan, h.whole, if_true, hfraction, hexponent, Option.bind_some, Option.map_some]

/-- How a numeral begins: with a digit or a minus sign. -/
theorem Numeral.Printable.exists_cons_source (h : numeral.Printable) :
    ∃ c rest, numeral.source = c :: rest ∧ (c ≠ ' ' ∧ c ≠ '\t' ∧ c ≠ '\n' ∧ c ≠ '\r') ∧
      c ≠ ']' ∧ c ≠ '}' ∧ c ≠ '[' ∧ c ≠ '{' ∧ c ≠ '"' ∧ c ≠ 'n' ∧ c ≠ 't' ∧ c ≠ 'f' := by
  obtain ⟨first, tail, hwhole, hfirst⟩ := h.exists_cons
  rw [source_eq, hwhole]
  cases numeral.negative with
  | true => exact ⟨'-', _, rfl, by decide⟩
  | false =>
      refine ⟨first, _, rfl, ?_⟩
      have hne : ∀ c, c.isDigit = false → first ≠ c := by
        rintro c hc rfl
        exact absurd hfirst (by simp [hc])
      exact ⟨⟨hne _ rfl, hne _ rfl, hne _ rfl, hne _ rfl⟩, hne _ rfl, hne _ rfl, hne _ rfl, hne _ rfl,
        hne _ rfl, hne _ rfl, hne _ rfl, hne _ rfl⟩

/-! ## Values -/

/-- Characters that can be dropped between the parts of a document. -/
theorem skipBlanks_cons (h : c ≠ ' ' ∧ c ≠ '\t' ∧ c ≠ '\n' ∧ c ≠ '\r') (rest : List Char) :
    skipBlanks (c :: rest) = c :: rest := by
  obtain ⟨hspace, htab, hline, hreturn⟩ := h
  unfold skipBlanks
  rw [List.dropWhile_cons_of_neg]
  simp [hspace, htab, hline, hreturn]

/-- **To be read whatever follows**: `readValue?` gives the document back, with two steps for every
character. -/
def ReadsBack (json : Json) : Prop :=
  ∀ rest steps, EndsValue rest → 2 * json.source.length ≤ steps →
    readValue? steps (json.source ++ rest) = some (json, rest)

theorem readScalar?_numeral (hquote : c ≠ '"') (hn : c ≠ 'n') (ht : c ≠ 't') (hf : c ≠ 'f')
    (rest : List Char) :
    readScalar? (c :: rest) =
      (spanNumeral? (c :: rest)).map fun (numeral, rest) => (.number numeral, rest) := by
  unfold readScalar?
  split
  · rename_i heq
    exact absurd (List.cons.inj heq).1 hquote
  · rename_i heq
    exact absurd (List.cons.inj heq).1 hn
  · rename_i heq
    exact absurd (List.cons.inj heq).1 ht
  · rename_i heq
    exact absurd (List.cons.inj heq).1 hf
  · rfl

theorem readValue?_scalar (hblank : c ≠ ' ' ∧ c ≠ '\t' ∧ c ≠ '\n' ∧ c ≠ '\r') (hbracket : c ≠ '[')
    (hbrace : c ≠ '{') (steps : Nat) (rest : List Char) :
    readValue? (steps + 1) (c :: rest) = readScalar? (c :: rest) := by
  unfold readValue?
  rw [skipBlanks_cons hblank]
  split
  · rename_i heq
    exact absurd (List.cons.inj heq).1 hbracket
  · rename_i heq
    exact absurd (List.cons.inj heq).1 hbrace
  · rfl

/-- How a value begins: not with a blank, and not with what closes a list or a record. -/
theorem Printable.exists_cons (h : Printable json) :
    ∃ c rest, json.source = c :: rest ∧ (c ≠ ' ' ∧ c ≠ '\t' ∧ c ≠ '\n' ∧ c ≠ '\r') ∧
      c ≠ ']' ∧ c ≠ '}' := by
  cases h with
  | null => exact ⟨'n', _, rfl, by decide, by decide, by decide⟩
  | bool value =>
      cases value with
      | true => exact ⟨'t', _, rfl, by decide, by decide, by decide⟩
      | false => exact ⟨'f', _, rfl, by decide, by decide, by decide⟩
  | number h =>
      obtain ⟨c, rest, hsource, hne⟩ := h.exists_cons_source
      exact ⟨c, rest, hsource, hne.1, hne.2.1, hne.2.2.1⟩
  | string => exact ⟨'"', _, rfl, by decide, by decide, by decide⟩
  | @array elements =>
      cases elements with
      | nil => exact ⟨'[', _, rfl, by decide, by decide, by decide⟩
      | cons => exact ⟨'[', _, rfl, by decide, by decide, by decide⟩
  | @object members =>
      cases members with
      | nil => exact ⟨'{', _, rfl, by decide, by decide, by decide⟩
      | cons => exact ⟨'{', _, rfl, by decide, by decide, by decide⟩

theorem readsBack_null : ReadsBack .null := by
  intro rest steps _ hsteps
  obtain ⟨steps, rfl⟩ := Nat.exists_eq_add_one_of_ne_zero (Nat.ne_zero_of_lt hsteps)
  rfl

theorem readsBack_bool (value : Bool) : ReadsBack (.bool value) := by
  intro rest steps _ hsteps
  cases value with
  | true =>
      obtain ⟨steps, rfl⟩ := Nat.exists_eq_add_one_of_ne_zero (Nat.ne_zero_of_lt hsteps)
      rfl
  | false =>
      obtain ⟨steps, rfl⟩ := Nat.exists_eq_add_one_of_ne_zero (Nat.ne_zero_of_lt hsteps)
      rfl

theorem readsBack_number (h : numeral.Printable) : ReadsBack (.number numeral) := by
  intro rest steps hrest hsteps
  obtain ⟨c, tail, hsource, hblank, -, -, hbracket, hbrace, hquote, hn, ht, hf⟩ := h.exists_cons_source
  have hlength : (Json.number numeral).source = c :: tail := hsource
  rw [hlength, List.length_cons] at hsteps
  obtain ⟨steps, rfl⟩ := Nat.exists_eq_add_one_of_ne_zero (Nat.ne_zero_of_lt hsteps)
  have hspan := spanNumeral?_source h hrest
  rw [hsource, List.cons_append] at hspan
  rw [hlength, List.cons_append, readValue?_scalar hblank hbracket hbrace,
    readScalar?_numeral hquote hn ht hf, hspan]
  rfl

theorem readString?_quoted {pieces : List Piece} (h : ∀ piece ∈ pieces, piece.Printable)
    (rest : List Char) :
    readString? (pieces.flatMap Piece.source ++ '"' :: rest) = some (pieces, rest) := by
  have hlength := length_le_length_source pieces
  refine spanPieces?_source h ?_ rest
  rw [List.length_append]
  omega

theorem quoted_append (pieces : List Piece) (rest : List Char) :
    quoted pieces ++ rest = '"' :: (pieces.flatMap Piece.source ++ '"' :: rest) := by
  simp [quoted]

theorem readsBack_string {pieces : List Piece} (h : ∀ piece ∈ pieces, piece.Printable) :
    ReadsBack (.string pieces) := by
  intro rest steps _ hsteps
  have hsource : (Json.string pieces).source ++ rest =
      '"' :: (pieces.flatMap Piece.source ++ '"' :: rest) := quoted_append pieces rest
  have hpositive : 0 < (Json.string pieces).source.length := Nat.succ_pos _
  obtain ⟨steps, rfl⟩ := Nat.exists_eq_add_one_of_ne_zero (n := steps) (by omega)
  have hread : readScalar? ('"' :: (pieces.flatMap Piece.source ++ '"' :: rest)) =
      (readString? (pieces.flatMap Piece.source ++ '"' :: rest)).map
        fun found => (.string found.1, found.2) := rfl
  rw [hsource, readValue?_scalar (by decide) (by decide) (by decide), hread, readString?_quoted h]
  rfl

/-! ## Lists -/

theorem readElements?_last {text : List Char} {element : Json}
    (h : readValue? steps text = some (element, ']' :: rest)) :
    readElements? (steps + 1) text = some ([element], rest) := by
  have hclosing : skipBlanks (']' :: rest) = ']' :: rest := skipBlanks_cons (by decide) rest
  simp only [readElements?, h, hclosing]

theorem readElements?_next {text : List Char} {element : Json}
    (h : readValue? steps text = some (element, ',' :: rest)) :
    readElements? (steps + 1) text =
      (readElements? steps rest).map fun (elements, rest) => (element :: elements, rest) := by
  have hcomma : skipBlanks (',' :: rest) = ',' :: rest := skipBlanks_cons (by decide) rest
  simp only [readElements?, h, hcomma]

theorem readElements?_source {first : Json} {others : List Json}
    (h : ∀ element ∈ first :: others, ReadsBack element) :
    ∀ rest steps, 2 * (first.source ++ elementsSource others).length ≤ steps →
      readElements? steps (first.source ++ elementsSource others ++ rest) =
        some (first :: others, rest) := by
  induction others generalizing first with
  | nil =>
      intro rest steps hsteps
      rw [elementsSource, List.length_append, List.length_singleton] at hsteps
      obtain ⟨steps, rfl⟩ := Nat.exists_eq_add_one_of_ne_zero (n := steps) (by omega)
      have hfirst := h first List.mem_cons_self (']' :: rest) steps
        (.of_cons (.inr (.inl rfl)) rest) (by omega)
      rw [elementsSource, List.append_assoc, List.singleton_append]
      exact readElements?_last hfirst
  | cons next others ih =>
      intro rest steps hsteps
      rw [elementsSource, List.cons_append, List.length_append, List.length_cons] at hsteps
      obtain ⟨steps, rfl⟩ := Nat.exists_eq_add_one_of_ne_zero (n := steps) (by omega)
      have hfirst := h first List.mem_cons_self (',' :: (next.source ++ elementsSource others ++ rest)) steps
        (.of_cons (.inl rfl) _) (by omega)
      have hothers := ih (fun element hmem => h element (List.mem_cons_of_mem _ hmem)) rest steps (by omega)
      rw [elementsSource, List.append_assoc, List.cons_append, List.cons_append, readElements?_next hfirst,
        hothers]
      rfl

theorem readValue?_list (hblank : c ≠ ' ' ∧ c ≠ '\t' ∧ c ≠ '\n' ∧ c ≠ '\r') (hclosing : c ≠ ']')
    (steps : Nat) (rest : List Char) :
    readValue? (steps + 1) ('[' :: c :: rest) =
      (readElements? steps (c :: rest)).map fun (elements, rest) => (.array elements, rest) := by
  have hopening : skipBlanks ('[' :: c :: rest) = '[' :: c :: rest := skipBlanks_cons (by decide) _
  simp only [readValue?, hopening, skipBlanks_cons hblank]
  split
  · rename_i heq
    exact absurd (List.cons.inj heq).1 hclosing
  · rfl

theorem readsBack_array {elements : List Json} (hprintable : ∀ element ∈ elements, Printable element)
    (h : ∀ element ∈ elements, ReadsBack element) : ReadsBack (.array elements) := by
  intro rest steps _ hsteps
  cases elements with
  | nil =>
      obtain ⟨steps, rfl⟩ := Nat.exists_eq_add_one_of_ne_zero (Nat.ne_zero_of_lt hsteps)
      rfl
  | cons first others =>
      obtain ⟨c, tail, hfirst, hblank, hclosing, -⟩ := (hprintable first List.mem_cons_self).exists_cons
      have hsource : (Json.array (first :: others)).source =
          '[' :: (first.source ++ elementsSource others) := by rw [source, List.cons_append]
      rw [hsource, List.length_cons] at hsteps
      obtain ⟨steps, rfl⟩ := Nat.exists_eq_add_one_of_ne_zero (n := steps) (by omega)
      have helements := readElements?_source h rest steps (by omega)
      rw [hsource, List.cons_append]
      rw [hfirst, List.cons_append, List.cons_append] at helements ⊢
      rw [readValue?_list hblank hclosing, helements]
      rfl

/-! ## Records -/

theorem readName?_quoted {name : List Piece} (h : ∀ piece ∈ name, piece.Printable) (rest : List Char) :
    readName? (quoted name ++ ':' :: rest) = some (name, rest) := by
  have hquote : ∀ text, skipBlanks ('"' :: text) = '"' :: text := skipBlanks_cons (by decide)
  have hcolon : skipBlanks (':' :: rest) = ':' :: rest := skipBlanks_cons (by decide) rest
  rw [quoted_append]
  simp only [readName?, hquote, readString?_quoted h, Option.bind_some, hcolon]

theorem readMembers?_last {text after : List Char} {name : List Piece} {value : Json}
    (hname : readName? text = some (name, after))
    (h : readValue? steps after = some (value, '}' :: rest)) :
    readMembers? (steps + 1) text = some ([(name, value)], rest) := by
  have hclosing : skipBlanks ('}' :: rest) = '}' :: rest := skipBlanks_cons (by decide) rest
  simp only [readMembers?, hname, h, hclosing]

theorem readMembers?_next {text after : List Char} {name : List Piece} {value : Json}
    (hname : readName? text = some (name, after))
    (h : readValue? steps after = some (value, ',' :: rest)) :
    readMembers? (steps + 1) text =
      (readMembers? steps rest).map fun (members, rest) => ((name, value) :: members, rest) := by
  have hcomma : skipBlanks (',' :: rest) = ',' :: rest := skipBlanks_cons (by decide) rest
  simp only [readMembers?, hname, h, hcomma]

/-- The members of a record behind its opening brace. -/
def firstMembersSource (name : List Piece) (value : Json) (others : List (List Piece × Json)) :
    List Char :=
  quoted name ++ ':' :: value.source ++ membersSource others

theorem readMembers?_source {name : List Piece} {value : Json} {others : List (List Piece × Json)}
    (hnames : ∀ member ∈ (name, value) :: others, ∀ piece ∈ member.1, piece.Printable)
    (h : ∀ member ∈ (name, value) :: others, ReadsBack member.2) :
    ∀ rest steps, 2 * (firstMembersSource name value others).length ≤ steps →
      readMembers? steps (firstMembersSource name value others ++ rest) =
        some ((name, value) :: others, rest) := by
  induction others generalizing name value with
  | nil =>
      intro rest steps hsteps
      simp only [firstMembersSource, membersSource, List.length_append, List.length_cons,
        List.length_nil] at hsteps
      obtain ⟨steps, rfl⟩ := Nat.exists_eq_add_one_of_ne_zero (n := steps) (by omega)
      have hlength : 2 * value.source.length ≤ steps := by omega
      have hvalue := h (name, value) List.mem_cons_self ('}' :: rest) steps
        (.of_cons (.inr (.inr rfl)) rest) hlength
      have hname := readName?_quoted (hnames (name, value) List.mem_cons_self)
        (value.source ++ '}' :: rest)
      have htext : firstMembersSource name value [] ++ rest =
          quoted name ++ ':' :: (value.source ++ '}' :: rest) := by simp [firstMembersSource, membersSource]
      rw [htext]
      exact readMembers?_last hname hvalue
  | cons next others ih =>
      obtain ⟨nextName, nextValue⟩ := next
      intro rest steps hsteps
      have htext : firstMembersSource name value ((nextName, nextValue) :: others) =
          quoted name ++ ':' :: (value.source ++ ',' :: firstMembersSource nextName nextValue others) := by
        simp [firstMembersSource, membersSource]
      rw [htext] at hsteps ⊢
      simp only [List.length_append, List.length_cons] at hsteps
      obtain ⟨steps, rfl⟩ := Nat.exists_eq_add_one_of_ne_zero (n := steps) (by omega)
      have hlength : 2 * value.source.length ≤ steps := by omega
      have hvalue := h (name, value) List.mem_cons_self
        (',' :: (firstMembersSource nextName nextValue others ++ rest)) steps (.of_cons (.inl rfl) _)
        hlength
      have hname := readName?_quoted (hnames (name, value) List.mem_cons_self)
        (value.source ++ ',' :: (firstMembersSource nextName nextValue others ++ rest))
      have hothers := ih (fun member hmem => hnames member (List.mem_cons_of_mem _ hmem))
        (fun member hmem => h member (List.mem_cons_of_mem _ hmem)) rest steps (by omega)
      rw [List.append_assoc, List.cons_append, List.append_assoc, List.cons_append,
        readMembers?_next hname hvalue, hothers]
      rfl

theorem readValue?_record (steps : Nat) (rest : List Char) :
    readValue? (steps + 1) ('{' :: '"' :: rest) =
      (readMembers? steps ('"' :: rest)).map fun (members, rest) => (.object members, rest) := by
  have hopening : skipBlanks ('{' :: '"' :: rest) = '{' :: '"' :: rest := skipBlanks_cons (by decide) _
  have hquote : skipBlanks ('"' :: rest) = '"' :: rest := skipBlanks_cons (by decide) rest
  simp only [readValue?, hopening, hquote]
  rfl

theorem readsBack_object {members : List (List Piece × Json)}
    (hnames : ∀ member ∈ members, ∀ piece ∈ member.1, piece.Printable)
    (h : ∀ member ∈ members, ReadsBack member.2) : ReadsBack (.object members) := by
  intro rest steps _ hsteps
  cases members with
  | nil =>
      obtain ⟨steps, rfl⟩ := Nat.exists_eq_add_one_of_ne_zero (Nat.ne_zero_of_lt hsteps)
      rfl
  | cons first others =>
      obtain ⟨name, value⟩ := first
      have hsource : (Json.object ((name, value) :: others)).source =
          '{' :: firstMembersSource name value others := by
        simp [source, firstMembersSource]
      rw [hsource, List.length_cons] at hsteps
      obtain ⟨steps, rfl⟩ := Nat.exists_eq_add_one_of_ne_zero (n := steps) (by omega)
      have hmembers := readMembers?_source hnames h rest steps (by omega)
      have htail : firstMembersSource name value others ++ rest = '"' :: (name.flatMap Piece.source ++
          '"' :: ':' :: (value.source ++ membersSource others ++ rest)) := by
        simp [firstMembersSource, quoted]
      rw [hsource, List.cons_append, htail, readValue?_record, ← htail, hmembers]
      rfl

/-! ## Documents -/

/-- **Every document that is `Printable`** is `ReadsBack`, by induction on its parts. -/
theorem Printable.readsBack (h : Printable json) : ReadsBack json := by
  induction h with
  | null => exact readsBack_null
  | bool value => exact readsBack_bool value
  | number h => exact readsBack_number h
  | string h => exact readsBack_string h
  | array hprintable ih => exact readsBack_array hprintable ih
  | object hnames _ ih => exact readsBack_object hnames ih

/-- **Documents are read as they are written**: `parse?` gives back what `source` wrote. -/
theorem Printable.parse? (h : Printable json) : Json.parse? json.source = some json := by
  have hread := h.readsBack [] (2 * json.source.length + 1) endsValue_nil (Nat.le_succ _)
  rw [List.append_nil] at hread
  unfold Json.parse?
  rw [hread]
  rfl

end

end Calculator.Json
