import Calculator.Number.Decimal
import Calculator.Number.Rounded
import Calculator.Text.Blank

/-!
# `Session.Timestamp` — when a calculation was made

A timestamp is kept as the fields of a calendar and a clock at offset zero. It is written like
`2024-01-02T03:04:05.000000006Z` and read with some freedom: numbers may have fewer digits, blanks may
stand around them, and any offset is accepted and taken off. A minute may have a sixty-first second.

## Contents

* `Date`, `Clock`, `Timestamp` — the fields
* `Date.tomorrow?`, `Date.yesterday?` — neighbouring days
* `Timestamp.read?` — reading
* `Timestamp.text`, `Clock.text` — writing
-/

namespace Calculator

/-- A day of the calendar. -/
structure Date where
  year : Int
  month : Nat
  day : Nat
deriving Repr, DecidableEq

/-- A time of the day. -/
structure Clock where
  hour : Nat
  minute : Nat
  second : Nat
  nanosecond : Nat
deriving Repr, DecidableEq

/-- A moment, by its day and time at offset zero. -/
structure Timestamp where
  date : Date
  clock : Clock
deriving Repr, DecidableEq

namespace Date

/-- The years that days are counted in. -/
def firstYear : Int := -262143

/-- The last of those years. -/
def lastYear : Int := 262142

/-- Whether a year has a leap day: every fourth one, but of the hundreds only every fourth. -/
def isLeapYear (year : Int) : Bool := year % 4 = 0 && (year % 100 ≠ 0 || year % 400 = 0)

/-- The number of days of a month. -/
def daysIn (year : Int) (month : Nat) : Nat :=
  if month = 2 then if isLeapYear year then 29 else 28
  else if month = 4 ∨ month = 6 ∨ month = 9 ∨ month = 11 then 30
  else 31

/-- Whether there is such a day. -/
def isValid (d : Date) : Bool :=
  firstYear ≤ d.year && d.year ≤ lastYear && 1 ≤ d.month && d.month ≤ 12 && 1 ≤ d.day
    && d.day ≤ daysIn d.year d.month

/-- A day, if there is one. -/
def valid? (d : Date) : Option Date := if d.isValid then some d else none

/-- The day after. -/
def tomorrow? (d : Date) : Option Date :=
  if d.day < daysIn d.year d.month then some { d with day := d.day + 1 }
  else if d.month < 12 then some ⟨d.year, d.month + 1, 1⟩
  else valid? ⟨d.year + 1, 1, 1⟩

/-- The day before. -/
def yesterday? (d : Date) : Option Date :=
  if 1 < d.day then some { d with day := d.day - 1 }
  else if 1 < d.month then some ⟨d.year, d.month - 1, daysIn d.year (d.month - 1)⟩
  else valid? ⟨d.year - 1, 12, 31⟩

end Date

namespace Timestamp

/-! ## Reading -/

/-- At least one digit and at most `width` of them at the start of a text: their value, and what
follows. -/
def spanNumber? (width : Nat) (text : List Char) : Option (Nat × List Char) :=
  let digits := (text.take width).takeWhile Char.isDigit
  if digits = [] then none else some (Nat.ofDigitChars 10 digits 0, text.drop digits.length)

/-- A number behind blanks. -/
def spanField? (width : Nat) (text : List Char) : Option (Nat × List Char) :=
  spanNumber? width (Text.trimStart text)

/-- A year behind blanks: four digits at most, or as many as there are behind a sign. -/
def spanYear? (text : List Char) : Option (Int × List Char) :=
  match Text.trimStart text with
  | '-' :: rest => (spanNumber? rest.length rest).map fun (year, rest) => (-(year : Int), rest)
  | '+' :: rest => (spanNumber? rest.length rest).map fun (year, rest) => ((year : Int), rest)
  | rest => (spanNumber? 4 rest).map fun (year, rest) => ((year : Int), rest)

/-- What follows a mark that may stand behind blanks. -/
def afterMark? (mark : Char) (text : List Char) : Option (List Char) :=
  match Text.trimStart text with
  | c :: rest => if c = mark then some rest else none
  | [] => none

/-- Year, month and day. -/
def spanDate? (text : List Char) : Option (Date × List Char) := do
  let (year, rest) ← spanYear? text
  let (month, rest) ← spanField? 2 (← afterMark? '-' rest)
  let (day, rest) ← spanField? 2 (← afterMark? '-' rest)
  return (← Date.valid? ⟨year, month, day⟩, rest)

/-- A fraction of a second in nanoseconds, if a point follows; digits beyond the ninth count for
nothing. -/
def spanNanosecond? : List Char → Option (Nat × List Char)
  | '.' :: rest =>
    (spanNumber? 9 rest).map fun (value, after) =>
      (value * Nat.pow 10 (9 - (rest.length - after.length)), after.dropWhile Char.isDigit)
  | rest => some (0, rest)

/-- Hour, minute and second. -/
def spanClock? (text : List Char) : Option (Clock × List Char) := do
  let (hour, rest) ← spanField? 2 text
  let (minute, rest) ← spanField? 2 (← afterMark? ':' rest)
  let (second, rest) ← spanField? 2 (← afterMark? ':' rest)
  let (nanosecond, rest) ← spanNanosecond? rest
  if hour ≤ 23 ∧ minute ≤ 59 ∧ second ≤ 60 then return (⟨hour, minute, second, nanosecond⟩, rest)
  else none

/-- Two digits. -/
def spanPair? : List Char → Option (Nat × List Char)
  | tens :: ones :: rest =>
    if tens.isDigit ∧ ones.isDigit then some (Nat.ofDigitChars 10 [tens, ones] 0, rest) else none
  | _ => none

/-- The sign of an offset. -/
def takeOffsetSign? : List Char → Option (Bool × List Char)
  | '+' :: rest => some (false, rest)
  | '-' :: rest | '−' :: rest => some (true, rest)
  | _ => none

/-- Minutes in a day. -/
def minutesPerDay : Nat := 24 * 60

/-- Hours and minutes of an offset with their sign, in minutes; less than a day. -/
def spanHoursAndMinutes? (text : List Char) : Option (Int × List Char) := do
  let (negative, rest) ← takeOffsetSign? text
  let (hours, rest) ← spanPair? rest
  let (minutes, rest) ← spanPair? (rest.dropWhile fun c => c == ':' || Text.isBlank c)
  let offset := hours * 60 + minutes
  if minutes < 60 ∧ offset < minutesPerDay then
    return (if negative then -(offset : Int) else offset, rest)
  else none

/-- The offset behind blanks, in minutes: `UTC` or `Z` for none, or hours and minutes. -/
def spanOffset? (text : List Char) : Option (Int × List Char) :=
  let text := Text.trimStart text
  if (text.take 3).map Char.toUpper = ['U', 'T', 'C'] then some (0, text.drop 3)
  else
    match text with
    | 'Z' :: rest | 'z' :: rest => some (0, rest)
    | _ => spanHoursAndMinutes? text

/-- The moment at which clocks with an offset of some minutes show a day and time. An offset is less
than a day, so the day at offset zero is the same or a neighbour. -/
def atOffset? (date : Date) (clock : Clock) (offset : Int) : Option Timestamp :=
  let minutes := (clock.hour * 60 + clock.minute : Nat) - offset
  let wrapped := (minutes % minutesPerDay).toNat
  let date? :=
    if minutes < 0 then date.yesterday?
    else if minutes < minutesPerDay then some date
    else date.tomorrow?
  date?.map fun date => ⟨date, { clock with hour := wrapped / 60, minute := wrapped % 60 }⟩

/-- What follows the mark between day and time. -/
def afterDate? : List Char → Option (List Char)
  | 'T' :: rest | 't' :: rest | ' ' :: rest => some rest
  | _ => none

/-- The moment that a text tells. -/
def read? (text : List Char) : Option Timestamp := do
  let (date, rest) ← spanDate? text
  let (clock, rest) ← spanClock? (← afterDate? rest)
  let (offset, rest) ← spanOffset? rest
  if Text.trimStart rest = [] then atOffset? date clock offset else none

end Timestamp

/-! ## Writing -/

/-- The time of the day to the second. -/
def Clock.text (clock : Clock) : List Char :=
  padDigits 2 clock.hour ++ ':' :: padDigits 2 clock.minute ++ ':' :: padDigits 2 clock.second

/-- A day; years that do not have four digits carry a sign. -/
def Date.text (date : Date) : List Char :=
  let sign := if date.year < 0 then ['-'] else if 9999 < date.year then ['+'] else []
  sign ++ padDigits 4 date.year.natAbs ++ '-' :: padDigits 2 date.month ++ '-' :: padDigits 2 date.day

/-- A fraction of a second with its point: three, six or nine digits, or none if there is no fraction. -/
def fractionText (nanosecond : Nat) : List Char :=
  if nanosecond = 0 then []
  else if nanosecond % Nat.pow 10 6 = 0 then '.' :: padDigits 3 (nanosecond / Nat.pow 10 6)
  else if nanosecond % Nat.pow 10 3 = 0 then '.' :: padDigits 6 (nanosecond / Nat.pow 10 3)
  else '.' :: padDigits 9 nanosecond

/-- A moment, at offset zero. -/
def Timestamp.text (timestamp : Timestamp) : List Char :=
  timestamp.date.text ++ 'T' :: timestamp.clock.text ++ fractionText timestamp.clock.nanosecond ++ ['Z']

end Calculator
