import SchemaRules.Function.Texts
import SchemaRules.Pattern.Parser
import SchemaRules.Value.Operators

/-!
# Functions on collections

Size and content of texts, bytes, lists and maps, and the extremes of a list.
-/

namespace SchemaRules.Answer

/-- **The size**: bytes of a text, items of a list, entries of a map. -/
def size : Value → Answer
  | .list items => .ok (.int items.length)
  | .map entries => .ok (.int entries.length)
  | .str s => .ok (.int s.utf8ByteSize)
  | .bytes b => .ok (.int b.length)
  | v => .error (.function "size" s!"cannot determine the size of {v.inspect}")

/-- Whether bytes occur in bytes. -/
def bytesOccur (sub : List UInt8) : List UInt8 → Bool
  | [] => sub.isEmpty
  | b :: rest => sub.isPrefixOf (b :: rest) || bytesOccur sub rest

/-- **Whether a value holds another one**: a list an item, a map a key, a text a text. Empty bytes
cannot be looked for. -/
def contains : Value → Value → Answer
  | .list items, v => .ok (.bool (items.any (Value.equal · v)))
  | .map entries, v =>
    match v.toKey? with
    | some key => .ok (.bool (Value.lookup? key entries).isSome)
    | none => .error (.badKey v)
  | .str s, .str sub => .ok (.bool (Text.find? sub.toList s.toList).isSome)
  | .bytes b, .bytes sub =>
    if sub.isEmpty then .error (.breakdown "window size must be non-zero")
    else .ok (.bool (bytesOccur sub b))
  | _, _ => .ok (.bool false)

/-- The value that stays when values are compared in order: the one before while it is `kept`,
otherwise the next one. -/
def extreme (kept : Ordering) : Value → List Value → Answer
  | best, [] => .ok best
  | best, v :: rest =>
    match best.compare? v with
    | some o => extreme kept (if o = kept then best else v) rest
    | none => .error (.notComparable best v)

/-- **The extreme of some values**, or of the items of a single list; null when there is none. -/
def extremeOf (kept : Ordering) : List Value → Answer
  | [.list []] => .ok .null
  | [.list (v :: rest)] => extreme kept v rest
  | [v] => .ok v
  | [] => .ok .null
  | v :: rest => extreme kept v rest

/-- **Whether a text fits a pattern.** -/
def isMatch (s pattern : String) : Answer :=
  match Pattern.ofText? .expression pattern with
  | some p => .ok (.bool (p.fits s))
  | none => .error (.function "matches" s!"'{pattern}' not a valid regex:")

end SchemaRules.Answer
