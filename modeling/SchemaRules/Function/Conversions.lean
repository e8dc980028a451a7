import SchemaRules.Function.Texts
import SchemaRules.Value.Compare

/-!
# Conversions

The functions that make a value of one kind out of another.

* `toInt`, `toUint` and `toDouble` read texts in full and refuse numbers that do not fit.
* `toText` writes numbers, bytes, spans and points in time.
-/

namespace SchemaRules.Answer

/-- Why a text is no whole number. -/
inductive WholeFailure where
  | empty
  | badDigit
  | tooLarge
  | tooSmall

/-- The wording of a text that is no whole number. -/
def WholeFailure.message : WholeFailure → String
  | empty => "cannot parse integer from empty string"
  | badDigit => "invalid digit found in string"
  | tooLarge => "number too large to fit in target type"
  | tooSmall => "number too small to fit in target type"

/-- The number that digits write, up to a limit; the first digit that is wrong or goes beyond the
limit decides. -/
def digitsUpTo (limit : Nat) (beyond : WholeFailure) :
    Nat → List Char → Except WholeFailure Nat
  | acc, [] => .ok acc
  | acc, c :: cs =>
    if !Decimal.isDigit c then .error .badDigit
    else
      let n := acc * 10 + (c.toNat - '0'.toNat)
      if n ≤ limit then digitsUpTo limit beyond n cs else .error beyond

/-- **A whole number from `-low` up to `high`**, with an optional sign; a minus only where negative
numbers are. -/
def readWhole (low high : Nat) (s : String) : Except WholeFailure Int :=
  match s.toList with
  | [] => .error .empty
  | ['+'] => .error .badDigit
  | ['-'] => .error .badDigit
  | '+' :: cs => Int.ofNat <$> digitsUpTo high .tooLarge 0 cs
  | '-' :: cs =>
    if low = 0 then .error .badDigit
    else (fun n : Nat => -(n : Int)) <$> digitsUpTo low .tooSmall 0 cs
  | cs => Int.ofNat <$> digitsUpTo high .tooLarge 0 cs

/-- A fault of a conversion. -/
def refuse (function message : String) : Answer :=
  .error (.function function message)

/-- A value that a conversion does not know. -/
def cannotConvert (function : String) (v : Value) : Answer :=
  refuse function s!"cannot convert {v.inspect} to {function}"

/-- A text that a conversion cannot read. -/
def cannotRead (function message : String) : Answer :=
  refuse function s!"string parse error: {message}"

/-- **A signed number.** -/
def toInt : Value → Answer
  | .str s =>
    match readWhole Value.intMin.natAbs Value.intMax.toNat s with
    | .ok n => .ok (.int n)
    | .error f => cannotRead "int" f.message
  | .double x =>
    if x > Value.toDouble Value.intMax || x < Value.toDouble Value.intMin then
      refuse "int" "integer overflow"
    else .ok (.int x.toInt64.toInt)
  | .int n => .ok (.int n)
  | .uint n => if Value.isInt n then .ok (.int n) else refuse "int" "integer overflow"
  | v => cannotConvert "int" v

/-- **An unsigned number.** -/
def toUint : Value → Answer
  | .str s =>
    match readWhole 0 Value.uintMax s with
    | .ok n => .ok (.uint n.toNat)
    | .error f => cannotRead "uint" f.message
  | .double x =>
    if x > Value.toDouble Value.uintMax || x < 0.0 then
      refuse "uint" "unsigned integer overflow"
    else .ok (.uint x.toUInt64.toNat)
  | .int n =>
    if 0 ≤ n then .ok (.uint n.toNat) else refuse "uint" "unsigned integer overflow"
  | .uint n => .ok (.uint n)
  | v => cannotConvert "uint" v

/-- **A double.** -/
def toDouble : Value → Answer
  | .str s =>
    match Decimal.readFloat? s.toList with
    | some x => .ok (.double x)
    | none =>
      cannotRead "double"
        (if s.isEmpty then "cannot parse float from empty string" else "invalid float literal")
  | .double x => .ok (.double x)
  | .int n => .ok (.double (Value.toDouble n))
  | .uint n => .ok (.double (Value.toDouble n))
  | v => cannotConvert "double" v

/-- **A text.** -/
def toText : Value → Answer
  | .str s => .ok (.str s)
  | .timestamp t => .ok (.str t.write)
  | .duration d => .ok (.str d.write)
  | .int n => .ok (.str (toString n))
  | .uint n => .ok (.str (toString n))
  | .double x => .ok (.str (Decimal.Layout.plain.write x))
  | .bytes b => .ok (.str (Text.ofBytes b))
  | v => cannotConvert "string" v

/-- **The span that a text writes.** -/
def toSpan (s : String) : Answer :=
  match Time.Span.ofText s with
  | .ok d => .ok (.duration d)
  | .error f => refuse "duration" f.message

/-- **The point in time that a text writes.** -/
def toInstant (s : String) : Answer :=
  match Time.Instant.ofText s with
  | .ok t => .ok (.timestamp t)
  | .error f => refuse "timestamp" f.message

end SchemaRules.Answer
