import Mathlib.Algebra.Group.Nat.Defs
import Mathlib.Data.Rat.Defs

/-! UTC instants in milliseconds since the Unix epoch, their ISO 8601 text and the reading
of such a text back, in the proleptic Gregorian calendar.
-/

namespace IsoTime

-- The calendar

/-- Days from 1970-01-01 to a civil date; a day past the month's end counts on into the
next month.
-/
def daysFromCivil (year month day : Int) : Int :=
  let shifted := if month ≤ 2 then year - 1 else year
  let era := shifted / 400
  let yearOfEra := shifted - era * 400
  let monthFromMarch := if 2 < month then month - 3 else month + 9
  let dayOfYear := (153 * monthFromMarch + 2) / 5 + day - 1
  era * 146097 + (yearOfEra * 365 + yearOfEra / 4 - yearOfEra / 100 + dayOfYear) - 719468

def civilFromDays (days : Int) : Int × Int × Int :=
  let shifted := days + 719468
  let era := shifted / 146097
  let dayOfEra := shifted - era * 146097
  let yearOfEra :=
    (dayOfEra - dayOfEra / 1460 + dayOfEra / 36524 - dayOfEra / 146096) / 365
  let dayOfYear := dayOfEra - (365 * yearOfEra + yearOfEra / 4 - yearOfEra / 100)
  let monthFromMarch := (5 * dayOfYear + 2) / 153
  let day := dayOfYear - (153 * monthFromMarch + 2) / 5 + 1
  let month := if monthFromMarch < 10 then monthFromMarch + 3 else monthFromMarch - 9
  let year := yearOfEra + era * 400
  (if month ≤ 2 then year + 1 else year, month, day)

def millisPerDay : Int := 86400000

/-- The largest distance from the epoch a date holds. -/
def maxMillis : Int := 8640000000000000

-- Text

def padded (width amount : Nat) : String :=
  let digits := toString amount
  String.ofList (List.replicate (width - digits.length) '0') ++ digits

/-- Four digits for the years 0 to 9999, a sign and six digits outside them. -/
def yearText (year : Int) : String :=
  if 0 ≤ year ∧ year ≤ 9999 then padded 4 year.toNat
  else if year < 0 then "-" ++ padded 6 (-year).toNat
  else "+" ++ padded 6 year.toNat

/-- `new Date(millis).toISOString()`; `none` is the `RangeError` of an invalid date. -/
def toISOString (millis : Int) : Option String :=
  if maxMillis < millis ∨ millis < -maxMillis then none
  else
    let days := millis / millisPerDay
    let rest := (millis - days * millisPerDay).toNat
    let (year, month, day) := civilFromDays days
    some (yearText year ++ "-" ++ padded 2 month.toNat ++ "-" ++ padded 2 day.toNat
      ++ "T" ++ padded 2 (rest / 3600000) ++ ":" ++ padded 2 (rest / 60000 % 60)
      ++ ":" ++ padded 2 (rest / 1000 % 60) ++ "." ++ padded 3 (rest % 1000) ++ "Z")

/-- The parts of a UTC timestamp's text. -/
structure Parts where
  year : Int
  month : Nat
  day : Nat
  hour : Nat
  minute : Nat
  second : Nat
  millis : Nat
deriving DecidableEq

/-- Read exactly `count` digits. -/
def readDigits : (count : Nat) → List Char → Option (Nat × List Char)
  | 0, rest => some (0, rest)
  | count + 1, c :: rest =>
    if c.isDigit then
      (readDigits count rest).map fun (low, rest) =>
        ((c.toNat - '0'.toNat) * 10 ^ count + low, rest)
    else none
  | _ + 1, [] => none

def readChar (expected : Char) : List Char → Option (List Char)
  | c :: rest => if c = expected then some rest else none
  | [] => none

/-- A four-digit year, or a signed six-digit one other than minus zero. -/
def readYear : List Char → Option (Int × List Char)
  | '+' :: rest => (readDigits 6 rest).map fun (year, rest) => ((year : Int), rest)
  | '-' :: rest =>
    (readDigits 6 rest).bind fun (year, rest) =>
      if year = 0 then none else some (-(year : Int), rest)
  | rest => (readDigits 4 rest).map fun (year, rest) => ((year : Int), rest)

/-- The milliseconds a fraction's digits name; digits past the third are dropped. -/
def fractionMillis (digits : List Char) : Nat :=
  match digits.map (fun c => c.toNat - '0'.toNat) with
  | [] => 0
  | [a] => 100 * a
  | [a, b] => 100 * a + 10 * b
  | a :: b :: c :: _ => 100 * a + 10 * b + c

def readSeconds : List Char → Option (Nat × Nat × List Char)
  | ':' :: rest =>
    (readDigits 2 rest).bind fun (second, rest) =>
      match rest with
      | '.' :: rest =>
        let digits := rest.takeWhile Char.isDigit
        if digits = [] then none
        else some (second, fractionMillis digits, rest.dropWhile Char.isDigit)
      | rest => some (second, 0, rest)
  | rest => some (0, 0, rest)

/-- The timestamp pattern: a calendar date, hours and minutes, optional seconds, and the
UTC zone written `Z` or `+00:00`.
-/
def readTimestamp (text : String) : Option Parts := do
  let (year, rest) ← readYear text.toList
  let rest ← readChar '-' rest
  let (month, rest) ← readDigits 2 rest
  let rest ← readChar '-' rest
  let (day, rest) ← readDigits 2 rest
  let rest ← readChar 'T' rest
  let (hour, rest) ← readDigits 2 rest
  let rest ← readChar ':' rest
  let (minute, rest) ← readDigits 2 rest
  let (second, millis, rest) ← readSeconds rest
  if rest = ['Z'] ∨ rest = "+00:00".toList
  then some { year, month, day, hour, minute, second, millis }
  else none

/-- The instant of a date and time; `none` is `NaN`. A day up to 31 is taken for any month,
and hour 24 only at midnight.
-/
def Parts.instant (parts : Parts) : Option Int :=
  let dated := 1 ≤ parts.month ∧ parts.month ≤ 12 ∧ 1 ≤ parts.day ∧ parts.day ≤ 31
  let timed := parts.hour < 24 ∧ parts.minute < 60 ∧ parts.second < 60
  let midnight := parts.hour = 24 ∧ parts.minute = 0 ∧ parts.second = 0 ∧ parts.millis = 0
  let millis :=
    daysFromCivil parts.year parts.month parts.day * millisPerDay
      + parts.hour * 3600000 + parts.minute * 60000 + parts.second * 1000 + parts.millis
  if dated ∧ (timed ∨ midnight) ∧ -maxMillis ≤ millis ∧ millis ≤ maxMillis
  then some millis
  else none

def Parts.onCalendar (parts : Parts) : Bool :=
  decide (civilFromDays (daysFromCivil parts.year parts.month parts.day)
    = (parts.year, (parts.month : Int), (parts.day : Int)))

example : toISOString 1756684800000 = some "2025-09-01T00:00:00.000Z" := by decide

end IsoTime
