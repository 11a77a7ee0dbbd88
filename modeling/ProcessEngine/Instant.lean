import ProcessEngine.Text.Blank
import ProcessEngine.Text.Digits

/-!
# Points in time

An instant is a second, counted from the start of 1970, and the nanoseconds into it.  A leap second
has no number of its own: it is the second thousand million of nanoseconds of the second before it,
so that instants are ordered by second and nanosecond.

Instants are read and written in the internet date format, with a calendar that extends the present
one in both directions.  Reading is generous with white space and leading zeros.
-/

namespace ProcessEngine

/-- A point in time: the seconds since the start of 1970 and the nanoseconds since then. -/
structure Instant where
  seconds : Int
  nanos : Nat
deriving DecidableEq, Repr, Inhabited

namespace Instant

/-- Earlier comes first. -/
instance : LT Instant where
  lt a b := a.seconds < b.seconds ∨ (a.seconds = b.seconds ∧ a.nanos < b.nanos)

instance (a b : Instant) : Decidable (a < b) :=
  inferInstanceAs (Decidable (a.seconds < b.seconds ∨ (a.seconds = b.seconds ∧ a.nanos < b.nanos)))

/-- Not after. -/
instance : LE Instant where
  le a b := ¬ b < a

instance (a b : Instant) : Decidable (a ≤ b) := inferInstanceAs (Decidable (¬ b < a))

/-- The start of a second. -/
def ofSeconds (seconds : Int) : Instant := ⟨seconds, 0⟩

/-- The instant a number of nanoseconds after the start of 1970. -/
def ofNanoseconds (nanos : Int) : Instant :=
  ⟨Int.fdiv nanos 1000000000, (Int.fmod nanos 1000000000).toNat⟩

/-- The milliseconds since the start of 1970. -/
def milliseconds (t : Instant) : Int := t.seconds * 1000 + t.nanos / 1000000

/-! ## The calendar -/

/-- A day of the calendar. -/
structure Date where
  year : Int
  month : Nat
  day : Nat
deriving DecidableEq, Repr

/-- Whether a year has a leap day. -/
def isLeap (year : Int) : Bool := year % 4 == 0 && (year % 100 != 0 || year % 400 == 0)

/-- How many days a month has. -/
def monthLength (year : Int) (month : Nat) : Nat :=
  match month with
  | 2 => if isLeap year then 29 else 28
  | 4 | 6 | 9 | 11 => 30
  | _ => 31

/-- The number of days from the start of 1970 to a date.  Years are counted from March, so that the
leap day comes last, and in eras of 400 years, which are all equally long. -/
def Date.toDays (d : Date) : Int :=
  let year := if d.month ≤ 2 then d.year - 1 else d.year
  let era := year / 400
  let yearOfEra := year % 400
  let month : Int := if d.month ≤ 2 then d.month + 9 else d.month - 3
  let dayOfYear := (153 * month + 2) / 5 + d.day - 1
  let dayOfEra := yearOfEra * 365 + yearOfEra / 4 - yearOfEra / 100 + dayOfYear
  era * 146097 + dayOfEra - 719468

/-- The date a number of days after the start of 1970. -/
def Date.ofDays (days : Int) : Date :=
  let z := days + 719468
  let era := z / 146097
  let dayOfEra := z % 146097
  let yearOfEra := (dayOfEra - dayOfEra / 1460 + dayOfEra / 36524 - dayOfEra / 146096) / 365
  let dayOfYear := dayOfEra - (365 * yearOfEra + yearOfEra / 4 - yearOfEra / 100)
  let month := (5 * dayOfYear + 2) / 153
  let day := dayOfYear - (153 * month + 2) / 5 + 1
  let calendarMonth := if month < 10 then month + 3 else month - 9
  let year := yearOfEra + era * 400
  ⟨if calendarMonth ≤ 2 then year + 1 else year, calendarMonth.toNat, day.toNat⟩

/-! ## Writing -/

/-- The fraction of a second in as few groups of three digits as it needs, with its point. -/
def fractionText (nanos : Nat) : List Char :=
  if nanos = 0 then []
  else if nanos % 1000000 = 0 then '.' :: Text.padded 10 3 (nanos / 1000000)
  else if nanos % 1000 = 0 then '.' :: Text.padded 10 6 (nanos / 1000)
  else '.' :: Text.padded 10 9 nanos

/-- The written form in universal time; a leap second is written as second 60. -/
def text (t : Instant) : String :=
  let leap := decide (1000000000 ≤ t.nanos)
  let nanos := if leap then t.nanos - 1000000000 else t.nanos
  let date := Date.ofDays (Int.fdiv t.seconds 86400)
  let ofDay := (Int.fmod t.seconds 86400).toNat
  let sign := if date.year < 0 then ['-'] else if 9999 < date.year then ['+'] else []
  String.ofList (sign ++ Text.padded 10 4 date.year.natAbs ++ '-' :: Text.padded 10 2 date.month ++
    '-' :: Text.padded 10 2 date.day ++ 'T' :: Text.padded 10 2 (ofDay / 3600) ++
    ':' :: Text.padded 10 2 (ofDay / 60 % 60) ++
    ':' :: Text.padded 10 2 (ofDay % 60 + if leap then 1 else 0) ++ fractionText nanos ++ ['Z'])

/-! ## Reading -/

/-- Drops white space in front. -/
def skipBlanks (cs : List Char) : List Char := cs.dropWhile Text.isBlank

/-- A number of at least one digit and of no more digits than given. -/
def number? (most : Nat) (cs : List Char) : Option (Nat × List Char) :=
  let ds := (cs.take most).takeWhile Text.isDigit
  if ds.isEmpty then none else some (Text.decimalValue ds, cs.drop ds.length)

/-- A number of one or two digits, after optional white space. -/
def component? (cs : List Char) : Option (Nat × List Char) := number? 2 (skipBlanks cs)

/-- Drops one expected character, after optional white space. -/
def mark? (expected : Char) (cs : List Char) : Option (List Char) :=
  match skipBlanks cs with
  | c :: rest => if c = expected then some rest else none
  | [] => none

/-- A year: up to four digits, or behind a sign as many as there are. -/
def year? (cs : List Char) : Option (Int × List Char) :=
  match skipBlanks cs with
  | '-' :: cs => (number? cs.length cs).map fun (n, rest) => (-(n : Int), rest)
  | '+' :: cs => (number? cs.length cs).map fun (n, rest) => ((n : Int), rest)
  | cs => (number? 4 cs).map fun (n, rest) => ((n : Int), rest)

/-- A fraction of a second in nanoseconds; digits beyond the ninth are dropped. -/
def fraction? : List Char → Option (Nat × List Char)
  | '.' :: rest =>
    match rest.takeWhile Text.isDigit with
    | [] => none
    | ds =>
      let nine := (ds ++ List.replicate 9 '0').take 9
      some (Text.decimalValue nine, rest.dropWhile Text.isDigit)
  | rest => some (0, rest)

/-- The sign in front of an offset, a plus, a hyphen or a minus. -/
def offsetSign? (c : Char) : Option Int :=
  if c = '+' then some 1 else if c = '-' || c.toNat = 0x2212 then some (-1) else none

/-- Two digits, the first one at most `highest`. -/
def twoDigits? (highest : Char) : List Char → Option (Nat × List Char)
  | a :: b :: rest =>
    if Text.isDigit a && Text.isDigit b && a ≤ highest then
      some (Text.decimalValue [a, b], rest)
    else none
  | _ => none

/-- The offset from universal time in seconds: a name of universal time, or hours and minutes with
any colons and white space between them. -/
def offset? : List Char → Option (Int × List Char)
  | 'Z' :: rest | 'z' :: rest => some (0, rest)
  | cs =>
    if (cs.take 3).map Char.toUpper = ['U', 'T', 'C'] then some (0, cs.drop 3)
    else
      match cs with
      | [] => none
      | sign :: rest => do
        let factor ← offsetSign? sign
        let (hours, rest) ← twoDigits? '9' rest
        let (minutes, rest) ← twoDigits? '5'
          (rest.dropWhile fun c => c == ':' || Text.isBlank c)
        if hours < 24 then some (factor * (hours * 3600 + minutes * 60), rest) else none

/-- The years of the calendar. -/
def calendarYears : Int × Int := (-262143, 262142)

/-- Whether a day lies in the years of the calendar. -/
def inCalendar (days : Int) : Bool :=
  decide (Date.toDays ⟨calendarYears.1, 1, 1⟩ ≤ days) &&
    decide (days ≤ Date.toDays ⟨calendarYears.2, 12, 31⟩)

/-- The day of a date, if the calendar has it. -/
def Date.toDays? (d : Date) : Option Int :=
  if calendarYears.1 ≤ d.year && d.year ≤ calendarYears.2 && 1 ≤ d.month && d.month ≤ 12 &&
      1 ≤ d.day && d.day ≤ monthLength d.year d.month then some d.toDays
  else none

/-- A date in front of a time of day. -/
def date? (cs : List Char) : Option (Date × List Char) := do
  let (year, cs) ← year? cs
  let cs ← mark? '-' cs
  let (month, cs) ← component? cs
  let cs ← mark? '-' cs
  let (day, cs) ← component? cs
  match cs with
  | 'T' :: rest | 't' :: rest | ' ' :: rest => some (⟨year, month, day⟩, rest)
  | _ => none

/-- A time of day in seconds and nanoseconds; second 60 is a leap second. -/
def timeOfDay? (cs : List Char) : Option ((Nat × Nat) × List Char) := do
  let (hour, cs) ← component? cs
  let cs ← mark? ':' cs
  let (minute, cs) ← component? cs
  let cs ← mark? ':' cs
  let (sec, cs) ← component? cs
  let (nanos, cs) ← fraction? cs
  if hour < 24 && minute < 60 && sec ≤ 60 then
    let leap := sec = 60
    some ((hour * 3600 + minute * 60 + (if leap then 59 else sec),
      if leap then nanos + 1000000000 else nanos), cs)
  else none

/-- Reads a date and a time of day with their offset from universal time. -/
def ofText? (s : String) : Option Instant := do
  let (date, cs) ← date? s.toList
  let ((ofDay, nanos), cs) ← timeOfDay? cs
  let (offset, cs) ← offset? (skipBlanks cs)
  let days ← date.toDays?
  let seconds := days * 86400 + ofDay - offset
  if (skipBlanks cs).isEmpty && inCalendar (Int.fdiv seconds 86400) then some ⟨seconds, nanos⟩
  else none

end Instant

end ProcessEngine
