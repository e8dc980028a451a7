import SchemaRules.Json.Skim
import SchemaRules.Rule.Basic

/-!
# Reading rules

A rule is an object whose entries `rule` and `message` are texts, each empty when it is
left out; other entries are passed over. It may also be a list of these two texts in
this order.

* `Rule.ofJson` reads a rule out of a value, `Rule.listOfJson` a list of rules.
* `Rule.ofText` reads a rule from JSON text and tells where it goes wrong.
-/

namespace SchemaRules.Rule

/-- The text of an entry, empty when there is none. -/
def entryText (key : String) (fields : Fields Json) : Except Mismatch String :=
  match Fields.get? key fields with
  | some v => v.asText
  | none => .ok ""

/-- **The rule that a value holds.** Of two wrong entries the one in front is reported. -/
def ofJson : Json → Except Mismatch Rule
  | .obj fields => do
    let message ← entryText "message" fields
    let expression ← entryText "rule" fields
    return ⟨expression, message⟩
  | .arr [] => .ok ⟨"", ""⟩
  | .arr [v] => do return ⟨← v.asText, ""⟩
  | .arr [v, w] => do return ⟨← v.asText, ← w.asText⟩
  | .arr (v :: w :: rest) => do
    let _ ← v.asText
    let _ ← w.asText
    throw (.length (rest.length + 2) "fewer elements in array")
  | v => .error (v.mismatch "struct ValidationRule")

/-- **The rules that a value lists.** The first wrong one is reported. -/
def listOfJson : Json → Except Mismatch (List Rule)
  | .arr items => items.mapM ofJson
  | v => .error (v.mismatch "a sequence")

/-- The entries of a rule read so far. -/
structure Draft where
  expression : Option String
  message : Option String

open Json (Reader)
open Json.Reader

/-- Fails because a value of another kind than `expected` comes next. -/
def wrongKind {α : Type} (c : Char) (expected : String) : Reader α := do
  let v : Json ←
    match ← scalar? c with
    | some v => pure v
    | none => pure (if c = '[' then .arr [] else .obj [])
  failHere (.mismatch (v.mismatch expected))

/-- The text that comes next. -/
def nextText : Reader String := do
  match ← peekInk? with
  | none => failHere .endInValue
  | some c =>
    if c = '"' then
      skip
      text
    else wrongKind c "a string"

/-- Fails because a key comes for the second time. -/
def twice {α : Type} (key : String) : Reader α := do
  if (← peekInk?) = some '\x7d' then skip
  failHere (.mismatch (.duplicate key))

/-- Reads on behind a key. -/
def entry (d : Draft) (key : String) : Reader Draft := do
  if key = "rule" then
    if d.expression.isSome then twice key
    colon
    return { d with expression := some (← nextText) }
  else if key = "message" then
    if d.message.isSome then twice key
    colon
    return { d with message := some (← nextText) }
  else
    colon
    skim
    return d

/-- The text at the next place of a list, if the list goes on. -/
def nextItem (first : Bool) : Reader (Option String) := do
  if ← moreItems first then some <$> nextText else return none

/-- Passes over the bracket behind the last place. -/
def closeList : Reader Unit := do
  match ← peekInk? with
  | none => failHere .endInList
  | some ']' => skip
  | some ',' =>
    skip
    if (← peekInk?) = some ']' then failAhead .commaAtEnd else failAhead .trailingText
  | some _ => failAhead .trailingText

/-- A rule that comes next. -/
def reader : Reader Rule := do
  match ← peekInk? with
  | none => failHere .endInValue
  | some '\x7b' =>
    skip
    let d ← entries entry ((← get).rest.length + 1) true ⟨none, none⟩
    return ⟨d.expression.getD "", d.message.getD ""⟩
  | some '[' =>
    skip
    let expression ← nextItem true
    let message ← if expression.isSome then nextItem false else pure none
    closeList
    return ⟨expression.getD "", message.getD ""⟩
  | some c => wrongKind c "struct ValidationRule"

/-- **The rule that a JSON text writes.** -/
def ofText (s : String) : Except Json.Failure Rule :=
  reader.readAll s

end SchemaRules.Rule
