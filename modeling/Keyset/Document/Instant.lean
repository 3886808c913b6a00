import Keyset.Text.Numeral

/-!
# Instants

Milliseconds since the start of 1970 and their text as a date and a time of day: a year of four
digits, a fraction of a second without final zeros, and an offset.  Reading takes any offset and any
single ASCII character between date and time; writing uses `T` and `Z`.

A leap second can be read only as the last second of a month in universal time, and stands for the
last instant before the next month.
-/

namespace Keyset.Instant

/-! ### Calendar -/

/-- Whether a year has a 29th of February. -/
def isLeapYear (year : Int) : Bool :=
  (year % 4 == 0 && year % 100 != 0) || year % 400 == 0

/-- The number of days of a month. -/
def daysInMonth (year : Int) (month : Nat) : Nat :=
  if month = 2 then
    if isLeapYear year then 29 else 28
  else if month = 4 ∨ month = 6 ∨ month = 9 ∨ month = 11 then 30 else 31

/-- The days from the start of 1970 to a date.  Years are counted from March, so that the leap day is
the last of its year. -/
def daysOfDate (year : Int) (month day : Nat) : Int :=
  let year := if month ≤ 2 then year - 1 else year
  let era := year / 400
  let yearOfEra := year - era * 400
  let monthFromMarch := (month + 9) % 12
  let dayOfYear := (153 * monthFromMarch + 2) / 5 + day - 1
  era * 146097 + (yearOfEra * 365 + yearOfEra / 4 - yearOfEra / 100 + dayOfYear) - 719468

/-- The date that lies a number of days after the start of 1970. -/
def dateOfDays (days : Int) : Int × Nat × Nat :=
  let days := days + 719468
  let era := days / 146097
  let dayOfEra := (days - era * 146097).toNat
  let yearOfEra := (dayOfEra - dayOfEra / 1460 + dayOfEra / 36524 - dayOfEra / 146096) / 365
  let dayOfYear := dayOfEra - (365 * yearOfEra + yearOfEra / 4 - yearOfEra / 100)
  let monthFromMarch := (5 * dayOfYear + 2) / 153
  let day := dayOfYear - (153 * monthFromMarch + 2) / 5 + 1
  let month := if monthFromMarch < 10 then monthFromMarch + 3 else monthFromMarch - 9
  (yearOfEra + era * 400 + (if month ≤ 2 then 1 else 0), month, day)

/-! ### Reading -/

/-- Reads a number of exactly `width` digits. -/
def readDigits? (width : Nat) (s : List Char) : Option (Nat × List Char) :=
  let ds := s.take width
  if ds.length = width ∧ ds.all Char.isDigit then
    some (Nat.ofDigitChars 10 ds 0, s.drop width)
  else
    none

/-- Reads one given character. -/
def readChar? (c : Char) : List Char → Option (List Char)
  | [] => none
  | d :: s => if d = c then some s else none

/-- Reads a fraction of a second, if there is one, in nanoseconds; later digits are dropped. -/
def readFraction? : List Char → Option (Nat × List Char)
  | '.' :: s =>
    let ds := s.takeWhile Char.isDigit
    if ds = [] then
      none
    else
      let nine := (ds ++ List.replicate 9 '0').take 9
      some (Nat.ofDigitChars 10 nine 0, s.dropWhile Char.isDigit)
  | s => some (0, s)

/-- Reads the offset from universal time, in seconds, which ends the text. -/
def readOffset? : List Char → Option Int
  | ['Z'] => some 0
  | ['z'] => some 0
  | c :: s => do
    let sign : Int ← if c = '+' then some 1 else if c = '-' then some (-1) else none
    let (hour, s) ← readDigits? 2 s
    let s ← readChar? ':' s
    let (minute, s) ← readDigits? 2 s
    if hour ≤ 23 ∧ minute ≤ 59 ∧ s = [] then
      some (sign * (hour * 3600 + minute * 60))
    else
      none
  | [] => none

/-- Whether the second that starts at a time in universal time is the last of a month. -/
def endsMonth (seconds : Int) : Bool :=
  let (year, month, day) := dateOfDays (seconds / 86400)
  seconds % 86400 == 86399 && day == daysInMonth year month

/-- Reads a date and a time of day as milliseconds, rounded toward the start of 1970. -/
def ofText? (s : List Char) : Option Int := do
  let (year, s) ← readDigits? 4 s
  let s ← readChar? '-' s
  let (month, s) ← readDigits? 2 s
  let s ← readChar? '-' s
  let (day, s) ← readDigits? 2 s
  let s ← match s with
    | c :: s => if c.toNat < 128 then some s else none
    | [] => none
  let (hour, s) ← readDigits? 2 s
  let s ← readChar? ':' s
  let (minute, s) ← readDigits? 2 s
  let s ← readChar? ':' s
  let (second, s) ← readDigits? 2 s
  let (nanos, s) ← readFraction? s
  let offset ← readOffset? s
  let leap := second = 60
  let (second, nanos) := if leap then (59, 999999999) else (second, nanos)
  let validDate := 1 ≤ month ∧ month ≤ 12 ∧ 1 ≤ day ∧ day ≤ daysInMonth year month
  let validTime := hour ≤ 23 ∧ minute ≤ 59 ∧ second ≤ 59
  let seconds :=
    daysOfDate year month day * 86400 + (hour * 3600 + minute * 60 + second : Nat) - offset
  if validDate ∧ validTime ∧ (leap → endsMonth seconds) then
    some ((seconds * 1000000000 + nanos).tdiv 1000000)
  else
    none

/-! ### Writing -/

/-- The last `width` decimal digits of a number, with leading zeros. -/
def padded (width n : Nat) : List Char :=
  let ds := Text.digits n
  List.replicate (width - ds.length) '0' ++ ds

/-- The first instant that has no text: the start of the year 10000. -/
def endOfText : Int :=
  253402300800000

/-- The text of an instant, in universal time.  Instants before 1970 or after the year 9999 have
none. -/
def text? (millis : Int) : Option (List Char) :=
  if 0 ≤ millis ∧ millis < endOfText then
    let (year, month, day) := dateOfDays (millis / 86400000)
    let time := (millis % 86400000).toNat
    let fraction := time % 1000
    let fractionDigits := ((padded 3 fraction).reverse.dropWhile (· == '0')).reverse
    some (padded 4 year.toNat ++ '-' :: padded 2 month ++ '-' :: padded 2 day ++
      'T' :: padded 2 (time / 3600000) ++ ':' :: padded 2 (time / 60000 % 60) ++
      ':' :: padded 2 (time / 1000 % 60) ++
      (if fraction = 0 then [] else '.' :: fractionDigits) ++ ['Z'])
  else
    none

end Keyset.Instant
