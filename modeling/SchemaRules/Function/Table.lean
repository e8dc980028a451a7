import SchemaRules.Function.Collections
import SchemaRules.Function.Conversions

/-!
# The table of functions

The functions that an expression can call, by their names. Methods take their receiver in
front, so `s.size()` is `size(s)`; arguments too many are not looked at.

* `Function.ofName?` looks a function up.
* `Function.apply` answers a call.
-/

namespace SchemaRules.Function

/-- A part of a point in time. -/
inductive Part where
  | year
  | month
  | dayOfYear
  | dayOfMonth
  | date
  | dayOfWeek
  | hours
  | minutes
  | seconds
  | milliseconds
  deriving DecidableEq

/-- **The part of a point in time**, at its own offset. Months and days of the year and of the
month count from zero, dates from one. -/
def Part.of (t : Time.Instant) : Part → Int
  | year => t.date.year
  | month => t.date.month - 1
  | dayOfYear => t.date.dayOfYear
  | dayOfMonth => t.date.day - 1
  | date => t.date.day
  | dayOfWeek => t.date.dayOfWeek
  | hours => t.hour
  | minutes => t.minute
  | seconds => t.second
  | milliseconds => t.milliseconds

end Function

/-- **A function.** -/
inductive Function where
  | contains
  | size
  | max
  | min
  | startsWith
  | endsWith
  | fits
  | string
  | bytes
  | double
  | int
  | uint
  | duration
  | timestamp
  | part (p : Function.Part)
  | charAt
  | indexOf
  | lastIndexOf
  | lowerAscii
  | upperAscii
  | replace
  | split
  | substring
  | trim
  | join
  | base64Encode
  | base64Decode
  deriving DecidableEq

namespace Function

/-- The functions with their names. -/
def table : List (String × Function) :=
  [("contains", .contains), ("size", .size), ("max", .max), ("min", .min),
    ("startsWith", .startsWith), ("endsWith", .endsWith), ("matches", .fits),
    ("string", .string), ("bytes", .bytes), ("double", .double), ("int", .int),
    ("uint", .uint), ("duration", .duration), ("timestamp", .timestamp),
    ("getFullYear", .part .year), ("getMonth", .part .month),
    ("getDayOfYear", .part .dayOfYear), ("getDayOfMonth", .part .dayOfMonth),
    ("getDate", .part .date), ("getDayOfWeek", .part .dayOfWeek), ("getHours", .part .hours),
    ("getMinutes", .part .minutes), ("getSeconds", .part .seconds),
    ("getMilliseconds", .part .milliseconds), ("charAt", .charAt), ("indexOf", .indexOf),
    ("lastIndexOf", .lastIndexOf), ("lowerAscii", .lowerAscii), ("upperAscii", .upperAscii),
    ("replace", .replace), ("split", .split), ("substring", .substring), ("trim", .trim),
    ("join", .join), ("base64Encode", .base64Encode), ("base64Decode", .base64Decode)]

/-- **The function of a name.** -/
def ofName? (name : String) : Option Function :=
  table.lookup name

/-- The text of the receiver. -/
def receiverText (c : Call) : Except Fault String := do
  (← c.receiver).toText

/-- The text of the argument at a place behind the receiver. -/
def textBehind (c : Call) (i : Nat) : Except Fault String := do
  (← c.behind i).toText

/-- The outcome of a test on the text of the receiver and that of the first argument. -/
def textTest (c : Call) (test : List Char → List Char → Bool) : Answer := do
  let s ← receiverText c
  let t ← textBehind c 0
  return .bool (test s.toList t.toList)

/-- **The answer to a call.** -/
def apply (f : Function) (c : Call) : Answer :=
  match f with
  | contains => do Answer.contains (← c.receiver) (← c.behind 0)
  | size => do Answer.size (← c.receiver)
  | max => do Answer.extremeOf .gt (← c.all)
  | min => do Answer.extremeOf .lt (← c.all)
  | startsWith => textTest c fun s t => Text.beginsWith t s
  | endsWith => textTest c fun s t => Text.beginsWith t.reverse s.reverse
  | fits => do Answer.isMatch (← receiverText c) (← textBehind c 0)
  | string => do Answer.toText (← c.receiver)
  | bytes => do return .bytes (Text.toBytes (← (← c.arg 0).toText))
  | double => do Answer.toDouble (← c.receiver)
  | int => do Answer.toInt (← c.receiver)
  | uint => do Answer.toUint (← c.receiver)
  | duration => do Answer.toSpan (← (← c.arg 0).toText)
  | timestamp => do Answer.toInstant (← (← c.arg 0).toText)
  | part p => do return .int (p.of (← (← c.receiver).toInstant))
  | charAt => do Answer.charAt (← receiverText c) (← c.behind 0)
  | indexOf => do return .int (Answer.indexOf (← receiverText c) (← textBehind c 0))
  | lastIndexOf => do return .int (Answer.lastIndexOf (← receiverText c) (← textBehind c 0))
  | lowerAscii => do return .str (Answer.lowerAscii (← receiverText c))
  | upperAscii => do return .str (Answer.upperAscii (← receiverText c))
  | replace => do
    return .str (Answer.replace (← receiverText c) (← textBehind c 0) (← textBehind c 1))
  | split => do
    return .list ((Answer.split (← receiverText c) (← textBehind c 0)).map .str)
  | substring => do
    Answer.substring (← receiverText c) (← c.behind 0) (← c.behind 1)
  | trim => do return .str (Text.trim (← receiverText c))
  | join => do Answer.join (← c.receiver) (← textBehind c 0)
  | base64Encode => do Answer.base64Encode (← c.arg 0)
  | base64Decode => do Answer.base64Decode (← (← c.arg 0).toText)

end Function

end SchemaRules
