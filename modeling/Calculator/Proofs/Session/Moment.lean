import Calculator.Proofs.Expression.Cutting
import Calculator.Proofs.Number.Positional
import Calculator.Session.Timestamp

/-!
# `Proofs.Session.Moment` — a moment is read as it is written

A moment is written as numbers with marks between them, each number with as many digits as it always has,
but for the years beyond four digits, which have a sign. The reader takes as many digits as a number may
have. So every number is told apart from what follows it, by its length or by the mark.

## Contents

* `Timestamp.Valid` — the moments that there are
* `spanNumber?_digits`, `spanField?_pad`, `spanYear?_text` — numbers
* `spanDate?_text`, `spanClock?_text`, `atOffset?_zero` — day, time and offset
* `Timestamp.read?_text` — moments
-/

namespace Calculator

/-- **The moments that there are**: a day of the calendar (`Date.isValid`), and a time of the day. A minute
may have a sixty-first second. -/
structure Timestamp.Valid (timestamp : Timestamp) : Prop where
  date : timestamp.date.isValid = true
  hour : timestamp.clock.hour ≤ 23
  minute : timestamp.clock.minute ≤ 59
  second : timestamp.clock.second ≤ 60
  nanosecond : timestamp.clock.nanosecond < 10 ^ 9

instance (timestamp : Timestamp) : Decidable timestamp.Valid :=
  decidable_of_iff
    (timestamp.date.isValid = true ∧ timestamp.clock.hour ≤ 23 ∧ timestamp.clock.minute ≤ 59 ∧
      timestamp.clock.second ≤ 60 ∧ timestamp.clock.nanosecond < 10 ^ 9)
    ⟨fun ⟨date, hour, minute, second, nanosecond⟩ => ⟨date, hour, minute, second, nanosecond⟩,
      fun h => ⟨h.date, h.hour, h.minute, h.second, h.nanosecond⟩⟩

namespace Timestamp

section

variable {digits rest : List Char} {width n : Nat} {c : Char} {date : Date} {clock : Clock}

/-! ## Numbers -/

/-- Digits are a number if there are not too many, and none follows unless there are as many as can be. -/
theorem spanNumber?_digits (hdigits : ∀ c ∈ digits, c.isDigit = true) (hne : digits ≠ [])
    (hle : digits.length ≤ width) (hrest : digits.length = width ∨ ∀ c ∈ rest.head?, c.isDigit = false) :
    spanNumber? width (digits ++ rest) = some (Nat.ofDigitChars 10 digits 0, rest) := by
  have hbehind : (rest.take (width - digits.length)).takeWhile Char.isDigit = [] := by
    rcases hrest with hfull | hhead
    · rw [hfull, Nat.sub_self, List.take_zero]
      rfl
    · cases rest with
      | nil => simp
      | cons c rest =>
          cases width - digits.length with
          | zero => rfl
          | succ k => exact List.takeWhile_cons_of_neg (by simpa using hhead c rfl)
  have hspan : ((digits ++ rest).take width).takeWhile Char.isDigit = digits := by
    rw [List.take_append, List.take_of_length_le hle, List.takeWhile_append_of_pos hdigits, hbehind,
      List.append_nil]
  unfold spanNumber?
  simp only [hspan, hne, if_false, List.drop_left]

theorem padDigits_ne_nil (width n : Nat) : padDigits width n ≠ [] := by
  unfold padDigits
  simp [Nat.toDigits_ne_nil]

/-- Blanks are looked for in front of a number, but there are none. -/
theorem trimStart_digits (hdigits : ∀ c ∈ digits, c.isDigit = true) (hne : digits ≠ [])
    (rest : List Char) : Text.trimStart (digits ++ rest) = digits ++ rest := by
  obtain ⟨first, tail, rfl⟩ := List.exists_cons_of_ne_nil hne
  have hblank := Text.isBlank_eq_false_of_isDigit (hdigits first List.mem_cons_self)
  exact List.dropWhile_cons_of_neg (by simp [hblank])

/-- A number with all its digits. -/
theorem spanField?_pad (hwidth : 0 < width) (hlt : n < 10 ^ width) (rest : List Char) :
    spanField? width (padDigits width n ++ rest) = some (n, rest) := by
  have hlength := length_padDigits hwidth hlt
  unfold spanField?
  rw [trimStart_digits isDigit_of_mem_padDigits (padDigits_ne_nil _ _),
    spanNumber?_digits isDigit_of_mem_padDigits (padDigits_ne_nil _ _) hlength.le (.inl hlength),
    ofDigitChars_padDigits]

theorem afterMark?_cons (h : Text.isBlank c = false) (rest : List Char) :
    afterMark? c (c :: rest) = some rest := by
  have htrim : Text.trimStart (c :: rest) = c :: rest := List.dropWhile_cons_of_neg (by simp [h])
  unfold afterMark?
  rw [htrim]
  exact if_pos rfl

/-! ## Years -/

/-- The year as it is written. -/
def yearText (year : Int) : List Char :=
  (if year < 0 then ['-'] else if 9999 < year then ['+'] else []) ++ padDigits 4 year.natAbs

/-- Behind a sign a year may have any number of digits. -/
theorem spanNumber?_signedYear (n : Nat) (hrest : ∀ c ∈ rest.head?, c.isDigit = false) :
    spanNumber? (padDigits 4 n ++ rest).length (padDigits 4 n ++ rest) = some (n, rest) := by
  rw [spanNumber?_digits isDigit_of_mem_padDigits (padDigits_ne_nil _ _) (by simp) (.inr hrest),
    ofDigitChars_padDigits]

theorem spanYear?_text (year : Int) (hrest : ∀ c ∈ rest.head?, c.isDigit = false) :
    spanYear? (yearText year ++ rest) = some (year, rest) := by
  have hspan := spanNumber?_signedYear year.natAbs hrest
  unfold yearText spanYear?
  split_ifs with hnegative hlong
  · have htrim : Text.trimStart ('-' :: (padDigits 4 year.natAbs ++ rest)) =
        '-' :: (padDigits 4 year.natAbs ++ rest) := List.dropWhile_cons_of_neg (by decide)
    have hyear : -(year.natAbs : Int) = year := by omega
    simp only [List.cons_append, List.nil_append, htrim, hspan, Option.map_some, hyear]
  · have htrim : Text.trimStart ('+' :: (padDigits 4 year.natAbs ++ rest)) =
        '+' :: (padDigits 4 year.natAbs ++ rest) := List.dropWhile_cons_of_neg (by decide)
    have hyear : (year.natAbs : Int) = year := by omega
    simp only [List.cons_append, List.nil_append, htrim, hspan, Option.map_some, hyear]
  · have hyear : (year.natAbs : Int) = year := by omega
    have hlength : (padDigits 4 year.natAbs).length = 4 := length_padDigits (by decide) (by omega)
    have hall : ∀ c ∈ padDigits 4 year.natAbs, c.isDigit = true := isDigit_of_mem_padDigits
    have hfour : spanNumber? 4 (padDigits 4 year.natAbs ++ rest) = some (year.natAbs, rest) := by
      rw [spanNumber?_digits hall (padDigits_ne_nil _ _) hlength.le (.inl hlength),
        ofDigitChars_padDigits]
    obtain ⟨first, tail, hdigits⟩ := List.exists_cons_of_ne_nil (padDigits_ne_nil 4 year.natAbs)
    have hfirst : first.isDigit = true := hall first (by simp [hdigits])
    rw [List.nil_append, trimStart_digits hall (padDigits_ne_nil _ _)]
    rw [hdigits, List.cons_append] at hfour ⊢
    -- a digit is no sign
    split
    · rename_i heq
      rw [(List.cons.inj heq).1] at hfirst
      exact absurd hfirst (by decide)
    · rename_i heq
      rw [(List.cons.inj heq).1] at hfirst
      exact absurd hfirst (by decide)
    · simp only [hfour, Option.map_some, hyear]

/-! ## Day, time and offset -/

theorem date_text (date : Date) :
    date.text = yearText date.year ++ '-' :: (padDigits 2 date.month ++ '-' :: padDigits 2 date.day) := by
  unfold Date.text yearText
  simp

/-- A day of the calendar is read as it is written. -/
theorem spanDate?_text (h : date.isValid = true) (rest : List Char) :
    spanDate? (date.text ++ rest) = some (date, rest) := by
  have hmark : ∀ text, afterMark? '-' ('-' :: text) = some text := afterMark?_cons (by decide)
  have hbounds : date.month < 10 ^ 2 ∧ date.day < 10 ^ 2 := by
    have hdays : Date.daysIn date.year date.month ≤ 31 := by
      unfold Date.daysIn
      split_ifs <;> omega
    simp only [Date.isValid, Bool.and_eq_true, decide_eq_true_eq] at h
    omega
  have hvalid : Date.valid? ⟨date.year, date.month, date.day⟩ = some date := if_pos h
  rw [date_text]
  simp only [List.append_assoc, List.cons_append]
  unfold spanDate?
  rw [spanYear?_text _ (by simp)]
  simp only [Option.bind_eq_bind, Option.bind_some, hmark, spanField?_pad (by decide) hbounds.1,
    spanField?_pad (by decide) hbounds.2, hvalid, Option.pure_def]

/-- A fraction of a second is read as it is written. -/
theorem spanNanosecond?_text (h : n < 10 ^ 9) :
    spanNanosecond? (fractionText n ++ ['Z']) = some (n, ['Z']) := by
  have hplaces : ∀ places value, 0 < places → places ≤ 9 → value < 10 ^ places →
      spanNanosecond? ('.' :: padDigits places value ++ ['Z']) =
        some (value * Nat.pow 10 (9 - places), ['Z']) := by
    intro places value hpos hle hlt
    have hlength := length_padDigits hpos hlt
    have hspan : spanNumber? 9 (padDigits places value ++ ['Z']) = some (value, ['Z']) := by
      rw [spanNumber?_digits isDigit_of_mem_padDigits (padDigits_ne_nil _ _) (by omega) (.inr (by simp)),
        ofDigitChars_padDigits]
    have htaken : (padDigits places value ++ ['Z']).length - ['Z'].length = places := by
      rw [List.length_append, hlength]
      simp
    have hrest : ['Z'].dropWhile Char.isDigit = ['Z'] := rfl
    simp only [List.cons_append, spanNanosecond?, hspan, Option.map_some, htaken, hrest]
  unfold fractionText
  simp only [Nat.pow_eq]
  split_ifs with hnone hmilli hmicro
  · rw [hnone]
    rfl
  · rw [hplaces 3 _ (by decide) (by decide) (by omega), Nat.pow_eq, Nat.div_mul_cancel
      (Nat.dvd_of_mod_eq_zero hmilli)]
  · rw [hplaces 6 _ (by decide) (by decide) (by omega), Nat.pow_eq, Nat.div_mul_cancel
      (Nat.dvd_of_mod_eq_zero hmicro)]
  · rw [hplaces 9 _ (by decide) (by decide) h, Nat.sub_self, Nat.pow_eq, pow_zero, Nat.mul_one]

/-- A time of the day is read as it is written. -/
theorem spanClock?_text (hhour : clock.hour ≤ 23) (hminute : clock.minute ≤ 59)
    (hsecond : clock.second ≤ 60) (hnanosecond : clock.nanosecond < 10 ^ 9) :
    spanClock? (clock.text ++ fractionText clock.nanosecond ++ ['Z']) = some (clock, ['Z']) := by
  have hmark : ∀ text, afterMark? ':' (':' :: text) = some text := afterMark?_cons (by decide)
  have hfield : ∀ n, n < 100 → ∀ text, spanField? 2 (padDigits 2 n ++ text) = some (n, text) :=
    fun n hn => spanField?_pad (by decide) hn
  unfold Clock.text
  simp only [List.append_assoc, List.cons_append]
  unfold spanClock?
  rw [hfield _ (by omega)]
  simp only [Option.bind_eq_bind, Option.bind_some, hmark, hfield _ (show clock.minute < 100 by omega),
    hfield _ (show clock.second < 100 by omega), spanNanosecond?_text hnanosecond]
  rw [if_pos ⟨hhour, hminute, hsecond⟩]
  rfl

theorem atOffset?_zero (hhour : clock.hour ≤ 23) (hminute : clock.minute ≤ 59) :
    atOffset? date clock 0 = some ⟨date, clock⟩ := by
  have hwrapped : (((clock.hour * 60 + clock.minute : Nat) : Int) - 0) % (minutesPerDay : Nat) =
      (clock.hour * 60 + clock.minute : Nat) := by
    rw [minutesPerDay]
    omega
  unfold atOffset?
  simp only [hwrapped]
  rw [if_neg (by omega), if_pos (by rw [minutesPerDay]; omega), Option.map_some]
  have hhour' : ((clock.hour * 60 + clock.minute : Nat) : Int).toNat / 60 = clock.hour := by omega
  have hminute' : ((clock.hour * 60 + clock.minute : Nat) : Int).toNat % 60 = clock.minute := by omega
  rw [hhour', hminute']

/-! ## Moments -/

/-- **A moment is read as it is written**: `read?` gives back what `text` wrote. -/
theorem read?_text {timestamp : Timestamp} (h : timestamp.Valid) :
    read? timestamp.text = some timestamp := by
  have htext : timestamp.text = timestamp.date.text ++
      'T' :: (timestamp.clock.text ++ fractionText timestamp.clock.nanosecond ++ ['Z']) := by
    unfold Timestamp.text
    simp
  have hoffset : spanOffset? ['Z'] = some (0, []) := rfl
  have hend : Text.trimStart [] = [] := rfl
  have hmark : ∀ text, afterDate? ('T' :: text) = some text := fun _ => rfl
  rw [htext]
  unfold read?
  rw [spanDate?_text h.date]
  simp only [Option.bind_eq_bind, Option.bind_some, hmark,
    spanClock?_text h.hour h.minute h.second h.nanosecond, hoffset, hend, if_true,
    atOffset?_zero h.hour h.minute]

end

end Timestamp

end Calculator
