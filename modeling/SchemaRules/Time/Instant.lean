import SchemaRules.Text.Bytes
import SchemaRules.Time.Calendar
import SchemaRules.Time.Span

/-!
# Points in time

A point in time is a count of seconds from the beginning of 1970 with a fraction, and the
offset from universal time at which it was written. The fraction of a leap second goes
from one second up to two.

* `Instant.ofText` reads a date, a time and an offset.
* `Instant.write` is that form again, with a fraction of no, three, six or nine digits.
-/

namespace SchemaRules.Time

/-- **A point in time**: seconds of universal time, nanoseconds beyond them, and the offset in
seconds. -/
structure Instant where
  seconds : Int
  nanos : Nat
  offset : Int
  deriving DecidableEq

/-- The seconds of a day. -/
def secondsPerDay : Nat := 86400

namespace Instant

/-- Whether the point lies in a leap second. -/
def inLeapSecond (t : Instant) : Bool :=
  t.nanos ≥ Span.perSecond

/-- The order in time, whatever the offsets. -/
def compare (s t : Instant) : Ordering :=
  (Ord.compare s.seconds t.seconds).then (Ord.compare s.nanos t.nanos)

/-! ## Parts -/

/-- The seconds on the clock at the offset. -/
def localSeconds (t : Instant) : Int := t.seconds + t.offset

/-- The date at the offset. -/
def date (t : Instant) : Date :=
  Date.ofDays (Int.fdiv t.localSeconds secondsPerDay)

/-- The second of the day at the offset. -/
def secondOfDay (t : Instant) : Nat :=
  (Int.fmod t.localSeconds secondsPerDay).toNat

/-- The hour at the offset. -/
def hour (t : Instant) : Nat := t.secondOfDay / 3600

/-- The minute at the offset. -/
def minute (t : Instant) : Nat := t.secondOfDay / 60 % 60

/-- The second at the offset; a leap second counts with the one before. -/
def second (t : Instant) : Nat := t.secondOfDay % 60

/-- The whole milliseconds of the fraction. -/
def milliseconds (t : Instant) : Nat := t.nanos / 1_000_000

/-! ## Sums and differences -/

/-- **The point a span later.** Within a leap second only a fraction that stays in it is added to
it. -/
def add (t : Instant) (d : Span) : Instant :=
  let whole := d.seconds
  let fraction := d.subseconds
  let sum := (t.nanos : Int) + fraction
  let plain (seconds nanos : Int) : Instant :=
    ⟨seconds + whole + Int.fdiv (nanos + fraction) Span.perSecond,
      (Int.fmod (nanos + fraction) Span.perSecond).toNat, t.offset⟩
  if t.inLeapSecond then
    if whole > 0 ∨ (fraction > 0 ∧ sum ≥ 2 * Span.perSecond) then
      plain t.seconds (t.nanos - Span.perSecond)
    else if whole < 0 then plain (t.seconds + 1) (t.nanos - Span.perSecond)
    else { t with nanos := sum.toNat }
  else plain t.seconds t.nanos

/-- The second of the day in universal time. -/
def universalSecond (t : Instant) : Int :=
  Int.fmod t.seconds secondsPerDay

/-- **The span from `s` to `t`.** A leap second that lies between the two times of day counts. -/
def since (t s : Instant) : Span :=
  let leap : Int :=
    if t.universalSecond > s.universalSecond ∧ s.inLeapSecond then 1
    else if t.universalSecond < s.universalSecond ∧ t.inLeapSecond then -1
    else 0
  ⟨(t.seconds - s.seconds + leap) * Span.perSecond + (t.nanos - s.nanos)⟩

/-- The first second of a year in universal time. -/
def yearStart (year : Int) : Int :=
  Date.toDays ⟨year, 1, 1⟩ * secondsPerDay

/-- Whether the point lies in the years from `first` up to and without `last`. -/
def isWithin (t : Instant) (first last : Int) : Bool :=
  yearStart first ≤ t.seconds && t.seconds < yearStart last

/-! ## Writing -/

/-- A number with leading zeros. -/
def padded (width n : Nat) : List Char :=
  let digits := Decimal.digitsOf n
  List.replicate (width - digits.length) '0' ++ digits

/-- A year of four digits; other years have a sign. -/
def writeYear (y : Int) : List Char :=
  if 0 ≤ y ∧ y ≤ 9999 then padded 4 y.toNat
  else (if y < 0 then '-' else '+') :: padded 4 y.natAbs

/-- A fraction of no, three, six or nine digits. -/
def writeFraction (n : Nat) : List Char :=
  if n = 0 then []
  else if n % 1_000_000 = 0 then '.' :: padded 3 (n / 1_000_000)
  else if n % 1_000 = 0 then '.' :: padded 6 (n / 1_000)
  else '.' :: padded 9 n

/-- An offset in hours and minutes. -/
def writeOffset (offset : Int) : List Char :=
  let n := offset.natAbs
  (if offset < 0 then '-' else '+') :: padded 2 (n / 3600) ++ ':' :: padded 2 (n / 60 % 60)

/-- **The text of a point in time.** -/
def write (t : Instant) : String :=
  let d := t.date
  let second := t.second + t.nanos / Span.perSecond
  String.ofList (writeYear d.year ++ '-' :: padded 2 d.month ++ '-' :: padded 2 d.day ++
    'T' :: padded 2 t.hour ++ ':' :: padded 2 t.minute ++ ':' :: padded 2 second ++
    writeFraction (t.nanos % Span.perSecond) ++ writeOffset t.offset)

/-! ## Reading -/

/-- Why a text writes no point in time. -/
inductive Failure where
  | tooShort
  | invalid
  | outOfRange
  | trailing
  deriving DecidableEq

/-- The wording of an unreadable point in time. -/
def Failure.message : Failure → String
  | tooShort => "premature end of input"
  | invalid => "input contains invalid characters"
  | outOfRange => "input is out of range"
  | trailing => "trailing input"

/-- A number of exactly `n` digits in front of a text, and what follows it. -/
def takeNumber (n : Nat) (cs : List Char) : Except Failure (Nat × List Char) :=
  if Text.byteLength cs < n then .error .tooShort
  else
    let digits := cs.take n
    if digits.length = n ∧ digits.all Decimal.isDigit then
      .ok (Decimal.digitsValue digits, cs.drop n)
    else .error .invalid

/-- A given mark in front of a text, and what follows it. -/
def takeMark (marks : List Char) : List Char → Except Failure (List Char)
  | [] => .error .tooShort
  | c :: rest => if marks.contains c then .ok rest else .error .invalid

/-- A fraction in nanoseconds behind its point; digits beyond the ninth are not looked at. -/
def takeFraction (cs : List Char) : Except Failure (Nat × List Char) :=
  let digits := cs.takeWhile Decimal.isDigit
  let rest := cs.dropWhile Decimal.isDigit
  if cs.isEmpty then .error .tooShort
  else if digits.isEmpty then .error .invalid
  else
    let kept := digits.take 9
    .ok (Decimal.digitsValue kept * Nat.pow 10 (9 - kept.length), rest)

/-- The minutes of an offset. -/
def takeOffsetMinutes (cs : List Char) : Except Failure (Nat × List Char) :=
  if Text.byteLength cs < 2 then .error .tooShort
  else
    match cs with
    | a :: b :: rest =>
      if Decimal.isDigit a ∧ Decimal.isDigit b then
        if a ≤ '5' then .ok (Decimal.digitsValue [a, b], rest) else .error .outOfRange
      else .error .invalid
    | _ => .error .invalid

/-- An offset in seconds, and what follows it. -/
def takeOffset : List Char → Except Failure (Int × List Char)
  | [] => .error .tooShort
  | c :: rest => do
    if c = 'Z' ∨ c = 'z' then return (0, rest)
    let negative ←
      if c = '+' then pure false
      else if c = '-' ∨ c = '−' then pure true
      else throw .invalid
    let (hours, rest) ← takeNumber 2 rest
    let rest ← takeMark [':'] rest
    let (minutes, rest) ← takeOffsetMinutes rest
    let size : Int := hours * 3600 + minutes * 60
    return (if negative then -size else size, rest)

/-- The bytes of a date and a time without fraction and offset. -/
def leastLength : Nat := 19

/-- A date, and what follows it. -/
def takeDate (cs : List Char) : Except Failure (Date × List Char) := do
  let (year, cs) ← takeNumber 4 cs
  let cs ← takeMark ['-'] cs
  let (month, cs) ← takeNumber 2 cs
  let cs ← takeMark ['-'] cs
  let (day, cs) ← takeNumber 2 cs
  let date : Date := ⟨year, month, day⟩
  if date.isValid then return (date, cs) else throw .outOfRange

/-- The seconds of a clock and the nanoseconds beyond them, which a leap second has too many of, and
what follows them. -/
def takeClock (cs : List Char) : Except Failure (Int × Nat × List Char) := do
  let (hour, cs) ← takeNumber 2 cs
  let cs ← takeMark [':'] cs
  let (minute, cs) ← takeNumber 2 cs
  let cs ← takeMark [':'] cs
  let (second, cs) ← takeNumber 2 cs
  let (nanos, cs) ←
    match cs with
    | '.' :: rest => takeFraction rest
    | _ => pure (0, cs)
  if 23 < hour ∨ 59 < minute ∨ 60 < second then throw .outOfRange
  let leap := second = 60
  return (hour * 3600 + minute * 60 + (if leap then 59 else second),
    nanos + (if leap then Span.perSecond else 0), cs)

/-- **The point in time that a text writes.** -/
def ofText (s : String) : Except Failure Instant := do
  if Text.byteLength s.toList < leastLength then throw .tooShort
  let (date, cs) ← takeDate s.toList
  let cs ← takeMark ['T', 't', ' '] cs
  let (clock, nanos, cs) ← takeClock cs
  let (offset, cs) ← takeOffset cs
  if !cs.isEmpty then throw .trailing
  if offset.natAbs ≥ secondsPerDay then throw .outOfRange
  return ⟨date.toDays * secondsPerDay + clock - offset, nanos, offset⟩

end Instant

end SchemaRules.Time
