import BoardWiring.Text.Digits

/-!
# Dates and moments

The Gregorian calendar, carried on without a break in both directions, for dates of the years 1
to 9999, and moments of a day with microseconds and an offset from universal time.

* `Date.dayNumber` counts the days since 1970-01-01, and `civil` is its inverse on any day
  number;
* `Date.text` and `Moment.text` are the written forms, `Date.constructor` and
  `Moment.constructor` those that stand inside other values.
-/

namespace BoardWiring

/-- A day of the Gregorian calendar. -/
structure Date where
  /-- Year of the common era. -/
  year : Nat
  /-- Month, from one. -/
  month : Nat
  /-- Day of the month, from one. -/
  day : Nat
  deriving DecidableEq, Inhabited

/-- A time of day on a date, local unless an offset from universal time is given. -/
structure Moment where
  /-- Day. -/
  date : Date
  /-- Hour, from zero. -/
  hour : Nat
  /-- Minute. -/
  minute : Nat
  /-- Second. -/
  second : Nat
  /-- Microsecond. -/
  micro : Nat
  /-- Seconds ahead of universal time. -/
  offset : Option Int
  deriving DecidableEq, Inhabited

namespace Date

/-- A leap year. -/
def isLeap (year : Nat) : Bool := year % 4 == 0 && (year % 100 != 0 || year % 400 == 0)

/-- The number of days of a month. -/
def daysIn (year month : Nat) : Nat :=
  if month = 2 then (if isLeap year then 29 else 28)
  else if month = 4 ∨ month = 6 ∨ month = 9 ∨ month = 11 then 30
  else 31

/-- The date exists and its year has at most four digits. -/
def valid (d : Date) : Bool :=
  decide (1 ≤ d.year ∧ d.year ≤ 9999 ∧ 1 ≤ d.month ∧ d.month ≤ 12) &&
    decide (1 ≤ d.day ∧ d.day ≤ daysIn d.year d.month)

/-- Days from 1970-01-01 to the date, in years that begin in March. -/
def dayNumber (d : Date) : Int :=
  let y : Int := if d.month ≤ 2 then (d.year : Int) - 1 else d.year
  let m : Int := if d.month ≤ 2 then (d.month : Int) + 9 else (d.month : Int) - 3
  365 * y + y.fdiv 4 - y.fdiv 100 + y.fdiv 400 + (153 * m + 2).fdiv 5 + (d.day : Int) - 1 - 719468

/-- The date in the form year-month-day. -/
def chars (d : Date) : List Char :=
  Digits.padLeft '0' 4 (Digits.write 10 d.year) ++
    '-' :: Digits.padLeft '0' 2 (Digits.write 10 d.month) ++
    '-' :: Digits.padLeft '0' 2 (Digits.write 10 d.day)

/-- The text of a date. -/
def text (d : Date) : String := String.ofList d.chars

/-- The text of a date inside another value. -/
def constructor (d : Date) : String :=
  "datetime.date(" ++ Digits.decimal d.year ++ ", " ++ Digits.decimal d.month ++ ", " ++
    Digits.decimal d.day ++ ")"

end Date

/-- Year, month and day of the day with a number, counted from 1970-01-01.  The 400-year cycles
of the calendar have 146097 days each. -/
def civil (dayNumber : Int) : Int × Nat × Nat :=
  let z := dayNumber + 719468
  let era := z.fdiv 146097
  let doe := z - era * 146097
  let yoe := (doe - doe / 1460 + doe / 36524 - doe / 146096) / 365
  let doy := doe - (365 * yoe + yoe / 4 - yoe / 100)
  let mp := (5 * doy + 2) / 153
  let day := doy - (153 * mp + 2) / 5 + 1
  let month := if mp < 10 then mp + 3 else mp - 9
  (yoe + era * 400 + (if month ≤ 2 then 1 else 0), month.toNat, day.toNat)

namespace Moment

/-- The date, hour, minute and second exist. -/
def valid (m : Moment) : Bool :=
  m.date.valid && decide (m.hour < 24 ∧ m.minute < 60 ∧ m.second < 60)

/-- Microseconds from the start of 1970 to the moment as its own clock shows it. -/
def clock (m : Moment) : Int :=
  ((m.date.dayNumber * 86400 + m.hour * 3600 + m.minute * 60 + m.second) * 1000000) + m.micro

/-- Microseconds from the start of 1970 to the moment in universal time. -/
def instant (m : Moment) : Int := m.clock - m.offset.getD 0 * 1000000

/-- Two moments are the same: both local and equally shown, or both at one instant. -/
def same (m n : Moment) : Bool := m.offset.isSome == n.offset.isSome && m.instant == n.instant

/-- Two decimal digits. -/
def twoDigits (n : Nat) : List Char := Digits.padLeft '0' 2 (Digits.write 10 n)

/-- An offset as sign, hours and minutes. -/
def offsetChars (seconds : Int) : List Char :=
  (if seconds < 0 then '-' else '+') :: twoDigits (seconds.natAbs / 3600) ++
    ':' :: twoDigits (seconds.natAbs / 60 % 60)

/-- The moment with `separator` between date and time; microseconds only if they are not
zero. -/
def chars (separator : Char) (m : Moment) : List Char :=
  m.date.chars ++ separator :: twoDigits m.hour ++ ':' :: twoDigits m.minute ++
    ':' :: twoDigits m.second ++
    (if m.micro = 0 then [] else '.' :: Digits.padLeft '0' 6 (Digits.write 10 m.micro)) ++
    m.offset.elim [] offsetChars

/-- The text of a moment. -/
def text (m : Moment) : String := String.ofList (m.chars ' ')

/-- The text of a moment in one word. -/
def stamp (m : Moment) : String := String.ofList (m.chars 'T')

/-- The text of an offset inside another value.  A negative one counts from the day before. -/
def offsetConstructor (seconds : Int) : String :=
  if seconds = 0 then "datetime.timezone.utc"
  else if seconds < 0 then
    "datetime.timezone(datetime.timedelta(days=-1, seconds=" ++ Digits.signed (seconds + 86400) ++
      "))"
  else "datetime.timezone(datetime.timedelta(seconds=" ++ Digits.signed seconds ++ "))"

/-- The text of a moment inside another value; parts that are zero are left out at the end. -/
def constructor (m : Moment) : String :=
  let parts := [m.date.year, m.date.month, m.date.day, m.hour, m.minute] ++
    (if m.micro ≠ 0 then [m.second, m.micro] else if m.second ≠ 0 then [m.second] else [])
  "datetime.datetime(" ++ String.intercalate ", " (parts.map Digits.decimal) ++
    m.offset.elim "" (fun o => ", tzinfo=" ++ offsetConstructor o) ++ ")"

end Moment

end BoardWiring
