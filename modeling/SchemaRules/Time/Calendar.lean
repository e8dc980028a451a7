/-!
# The calendar

Dates of the Gregorian calendar, carried on before its beginning, and their count in
days from the first of January 1970.
-/

namespace SchemaRules.Time

/-- **A date.** Months and days count from one. -/
structure Date where
  year : Int
  month : Nat
  day : Nat
  deriving DecidableEq

/-- Whether a year has a twenty-ninth of February. -/
def isLeap (year : Int) : Bool :=
  year % 4 = 0 && (year % 100 ≠ 0 || year % 400 = 0)

/-- The days of a month. -/
def daysInMonth (year : Int) (month : Nat) : Nat :=
  if month = 2 then if isLeap year then 29 else 28
  else if month = 4 || month = 6 || month = 9 || month = 11 then 30
  else 31

namespace Date

/-- Whether the calendar has the date. -/
def isValid (d : Date) : Bool :=
  1 ≤ d.month && d.month ≤ 12 && 1 ≤ d.day && d.day ≤ daysInMonth d.year d.month

/-- The days of the year in front of the date. -/
def dayOfYear (d : Date) : Nat :=
  (List.range (d.month - 1)).foldl (fun n m => n + daysInMonth d.year (m + 1)) (d.day - 1)

/-- The days from the first of January 1970. -/
def toDays (d : Date) : Int :=
  let y := d.year - 1
  365 * (d.year - 1970) + (Int.fdiv y 4 - Int.fdiv y 100 + Int.fdiv y 400) - 477 + d.dayOfYear

/-- The month and day, both from one, of the `n`th day of a year, counted from zero. -/
def monthDay (year : Int) : List Nat → Nat → Nat × Nat
  | [], n => (12, n + 1)
  | m :: rest, n =>
    if n < daysInMonth year m then (m, n + 1) else monthDay year rest (n - daysInMonth year m)

/-- **The date of a day**, counted from the first of January 1970. -/
def ofDays (days : Int) : Date :=
  let n := days + 719162
  let cycles := Int.fdiv n 146097
  let inCycle := (Int.fmod n 146097).toNat
  let centuries := min (inCycle / 36524) 3
  let inCentury := inCycle - centuries * 36524
  let fours := inCentury / 1461
  let inFour := inCentury % 1461
  let years := min (inFour / 365) 3
  let year := cycles * 400 + centuries * 100 + fours * 4 + years + 1
  let (month, day) := monthDay year (List.range' 1 12) (inFour - years * 365)
  ⟨year, month, day⟩

/-- The day of the week, from Sunday. -/
def dayOfWeek (d : Date) : Nat :=
  (Int.fmod (d.toDays + 4) 7).toNat

end Date

end SchemaRules.Time
