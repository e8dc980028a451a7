import SchemaRules.Decimal.Reader
import SchemaRules.Text.Quoted
import SchemaRules.Text.Search

/-!
# Spans of time

A span is a whole number of nanoseconds.

* `Span.ofText` adds up numbers with a unit each, such as `1h30m1.5s`.
* `Span.write` is the form with hours, minutes and seconds; below a second it takes the
  smaller unit that fits.
-/

namespace SchemaRules.Time

/-- **A span of time.** -/
structure Span where
  nanoseconds : Int
  deriving DecidableEq

namespace Span

/-- The nanoseconds of a second. -/
def perSecond : Nat := 1_000_000_000

/-- The whole seconds, cut toward zero. -/
def seconds (d : Span) : Int := Int.tdiv d.nanoseconds perSecond

/-- The nanoseconds beyond the whole seconds, with the sign of the span. -/
def subseconds (d : Span) : Int := Int.tmod d.nanoseconds perSecond

/-- The most nanoseconds of a span, either way. -/
def limit : Nat := 0x7fff_ffff_ffff_ffff * 1_000_000

/-- A span that is not beyond the limit. -/
def checked (n : Int) : Option Span :=
  if n.natAbs ≤ limit then some ⟨n⟩ else none

/-- The span as messages show it: whole seconds, rounded down, and the rest. -/
def inspect (d : Span) : String :=
  let secs := Int.fdiv d.nanoseconds perSecond
  let nanos := Int.fmod d.nanoseconds perSecond
  s!"TimeDelta \x7b secs: {secs}, nanos: {nanos} \x7d"

/-! ## Reading -/

/-- Where and why a span is not readable. A text that breaks off within an exponent
fails for good. -/
structure Failure where
  rest : List Char
  atUnit : Bool
  fatal : Bool
  deriving DecidableEq

/-- The wording of an unreadable span. -/
def Failure.message (f : Failure) : String :=
  let severity := if f.fatal then "Failure" else "Error"
  let code := if f.atUnit then "Char" else "Float"
  let input := Text.quoted (String.ofList f.rest)
  s!"Parsing {severity}: Error \x7b input: {input}, code: {code} \x7d"

/-- The units with their nanoseconds, the longer names in front. -/
def units : List (List Char × Nat) :=
  [(['m', 's'], 1_000_000), (['u', 's'], 1_000), (['n', 's'], 1), (['h'], 3600 * perSecond),
    (['m'], 60 * perSecond), (['s'], perSecond)]

/-- A unit in front of a text, and what follows it. -/
def takeUnit? (cs : List Char) : Option (Nat × List Char) :=
  units.findSome? fun (name, nanos) => (Text.after? name cs).map fun rest => (nanos, rest)

/-- The words that stand for a number, the first that fits. -/
def words : List (List Char × Float) :=
  [(['n', 'a', 'n'], 0.0 / 0.0), (['i', 'n', 'f'], 1.0 / 0.0)]

/-- A number in front of a text, and what follows it. -/
def takeNumber (cs : List Char) : Except Failure (Float × List Char) :=
  let (negative, body) := Decimal.takeSign cs
  let dangling :=
    match body.dropWhile Decimal.isDigit with
    | '.' :: rest => breaksOff (rest.dropWhile Decimal.isDigit)
    | rest => breaksOff rest
  match Decimal.takeDecimal? body with
  | some (d, rest) =>
    if dangling then .error ⟨cs, false, true⟩ else .ok (d.toFloat negative, rest)
  | none =>
    let lower := Decimal.lowerAscii (cs.take 3)
    match words.find? fun w => w.1 = lower with
    | some (_, x) => .ok (x, cs.drop 3)
    | none => .error ⟨cs, false, false⟩
where
  /-- Whether an exponent begins here and has no digits. -/
  breaksOff (cs : List Char) : Bool :=
    match cs with
    | e :: rest =>
      (e = 'e' || e = 'E') && (Decimal.takeDigits (Decimal.takeSign rest).2).1.isEmpty
    | [] => false

/-- A double cut to a whole number of 64 bits; out of range it is the nearest such number, and
what is no number is zero. -/
def wholeOf (x : Float) : Int :=
  x.toInt64.toInt

/-- A number with its unit in front of a text, as nanoseconds, and what follows it. -/
def takePart (cs : List Char) : Except Failure (Int × List Char) := do
  let (x, rest) ← takeNumber cs
  match takeUnit? rest with
  | some (nanos, rest) => return (wholeOf (x * Float.ofNat nanos), rest)
  | none => throw ⟨rest, true, false⟩

/-- The sum of the parts in front of a text, at most `fuel` of them. -/
def sumParts : Nat → List Char → Except Failure Int
  | 0, _ => .ok 0
  | fuel + 1, cs =>
    match takePart cs with
    | .ok (n, rest) => (n + ·) <$> sumParts fuel rest
    | .error f => if f.fatal then .error f else .ok 0

/-- **The span that a text writes**: a sign, then `0` alone or parts; what follows them is not
looked at. -/
def ofText (s : String) : Except Failure Span := do
  let (negative, cs) :=
    match s.toList with
    | '-' :: rest => (true, rest)
    | cs => (false, cs)
  if cs = ['0'] then return ⟨0⟩
  let (first, rest) ← takePart cs
  let more ← sumParts rest.length rest
  return ⟨if negative then -(first + more) else first + more⟩

/-! ## Writing -/

/-- A number of `places` digits with leading zeros, without the zeros at the end. -/
def fractionDigits (n places : Nat) : List Char :=
  let digits := Decimal.digitsOf n
  let padded := List.replicate (places - digits.length) '0' ++ digits
  (padded.reverse.dropWhile (· = '0')).reverse

/-- A number scaled down by `places` digits. -/
def scaledDown (n places : Nat) : List Char :=
  let whole := Decimal.digitsOf (n / Nat.pow 10 places)
  let fraction := fractionDigits (n % Nat.pow 10 places) places
  if n % Nat.pow 10 places = 0 then whole else whole ++ '.' :: fraction

/-- A number of nanoseconds in units. -/
def writeNat (n : Nat) : List Char :=
  if n = 0 then ['0', 's']
  else if n < 1_000 then Decimal.digitsOf n ++ ['n', 's']
  else if n < 1_000_000 then scaledDown n 3 ++ ['µ', 's']
  else if n < perSecond then scaledDown n 6 ++ ['m', 's']
  else
    let minutes := n / (60 * perSecond)
    let seconds := scaledDown (n % (60 * perSecond)) 9 ++ ['s']
    if minutes = 0 then seconds
    else
      let hours := minutes / 60
      (if hours = 0 then [] else Decimal.digitsOf hours ++ ['h']) ++
        Decimal.digitsOf (minutes % 60) ++ 'm' :: seconds

/-- **The text of a span.** Its count of nanoseconds, or of seconds when that does not fit 64
bits, is taken as an unsigned number of 64 bits behind the sign. -/
def write (d : Span) : String :=
  let n := d.nanoseconds
  let count := if -0x8000_0000_0000_0000 ≤ n ∧ n ≤ 0x7fff_ffff_ffff_ffff then n else d.seconds
  let size := (Int.emod count 0x1_0000_0000_0000_0000).toNat
  String.ofList ((if count < 0 then ['-'] else []) ++ writeNat size)

end Span

end SchemaRules.Time
