import SchemaRules.Rule.Reader
import SchemaRules.Schema.Basic

/-!
# Rules of a schema node

Rules stand in lists under extension keys of a node.

* `Schema.rules` reads the lists of some keys one after the other; the first key whose
  list is not readable is reported.
* `Schema.setRules` writes the list of a key.
-/

namespace SchemaRules

/-- A rule list that is not readable. -/
structure RulesError where
  key : String
  reason : Mismatch
  deriving DecidableEq

/-- The wording of an unreadable rule list. -/
def RulesError.message (e : RulesError) : String :=
  s!"invalid rule list under '{e.key}': {e.reason.message}"

namespace Schema

/-- Whether one of the keys is an extension of the node. -/
def hasRules (s : Schema) (keys : List String) : Bool :=
  keys.any fun key => Fields.has key s.extensions

/-- The rules under one key; none when the node does not have it. -/
def rulesUnder (s : Schema) (key : String) : Except RulesError (List Rule) :=
  match Fields.get? key s.extensions with
  | none => .ok []
  | some v =>
    match Rule.listOfJson v with
    | .ok rules => .ok rules
    | .error reason => .error ⟨key, reason⟩

/-- **The rules under some keys**, in the order of the keys. -/
def rules (s : Schema) : List String → Except RulesError (List Rule)
  | [] => .ok []
  | key :: keys => do
    let here ← s.rulesUnder key
    return here ++ (← s.rules keys)

/-- **The node with a rule list under a key**, in place of what stood there. -/
def setRules (s : Schema) (key : String) (rules : List Rule) : Schema :=
  { s with extensions := Fields.insert key (.arr (rules.map Rule.toJson)) s.extensions }

end Schema

end SchemaRules
