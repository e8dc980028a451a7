import SchemaRules.Function.Call
import SchemaRules.Text.Base64
import SchemaRules.Text.Blank
import SchemaRules.Text.Bytes

/-!
# Functions on texts

Positions and lengths count code points.

* `charAt` and `substring` refuse positions outside the text.
* `indexOf` and `lastIndexOf` are -1 for a text that does not occur.
* `replace`, `split` and `join` cut and glue texts.
* `base64Encode` and `base64Decode` go between bytes and texts.
-/

namespace SchemaRules.Answer

/-- The position that an argument gives. -/
def position (function : String) : Value → Except Fault Nat
  | .int n =>
    if 0 ≤ n then .ok n.toNat else .error (.function function s!"index {n} out of range")
  | .uint n => .ok n
  | _ => .error (.function function "index must be an integer")

/-- **The character at a position**, as a text; at the end the empty text. -/
def charAt (s : String) (i : Value) : Answer := do
  let i ← position "charAt" i
  let cs := s.toList
  let n := cs.length
  if i > n then throw (.function "charAt" s!"index {i} out of range for length {n}")
  return .str (String.ofList ((cs.drop i).take 1))

/-- **The part of a text** from a position up to another one. -/
def substring (s : String) (start stop : Value) : Answer := do
  let start ← position "substring" start
  let stop ← position "substring" stop
  let cs := s.toList
  let n := cs.length
  if start > stop ∨ stop > n then
    throw (.function "substring" s!"range [{start}, {stop}) out of bounds for length {n}")
  return .str (String.ofList ((cs.drop start).take (stop - start)))

/-- A position, or -1 where there is none. -/
def orMinusOne : Option Nat → Int
  | some i => i
  | none => -1

/-- **The first position of a text.** -/
def indexOf (s sub : String) : Int :=
  orMinusOne (Text.find? sub.toList s.toList)

/-- **The last position of a text.** -/
def lastIndexOf (s sub : String) : Int :=
  orMinusOne (Text.findLast? sub.toList s.toList)

/-- A text in lower case, ASCII letters only. -/
def lowerAscii (s : String) : String :=
  String.ofList (s.toList.map Char.toLower)

/-- A text in upper case, ASCII letters only. -/
def upperAscii (s : String) : String :=
  String.ofList (s.toList.map Char.toUpper)

/-- **A text with one text in place of another.** -/
def replace (s old new : String) : String :=
  String.ofList (Text.swap old.toList new.toList s.toList)

/-- **The pieces of a text** between separators. -/
def split (s sep : String) : List String :=
  (Text.cut sep.toList s.toList).map String.ofList

/-- The text that an item of a list must be. -/
def joinable : Value → Except Fault String
  | .str s => .ok s
  | _ => .error (.function "join" "list elements must be strings")

/-- **The texts of a list with a separator between them.** -/
def join (v : Value) (sep : String) : Answer := do
  match v with
  | .list items => return .str (Text.joinWith sep (← items.mapM joinable))
  | _ => throw (.function "join" "receiver must be a list")

/-- **Bytes, or the bytes of a text, in symbols.** -/
def base64Encode : Value → Answer
  | .bytes b => .ok (.str (String.ofList (Base64.encode b)))
  | .str s => .ok (.str (String.ofList (Base64.encode (Text.toBytes s))))
  | _ => .error (.function "base64Encode" "argument must be bytes or string")

/-- **The bytes that symbols write.** -/
def base64Decode (s : String) : Answer :=
  match Base64.decode (Text.toBytes s) with
  | .ok b => .ok (.bytes b)
  | .error f => .error (.function "base64Decode" f.message)

end SchemaRules.Answer
