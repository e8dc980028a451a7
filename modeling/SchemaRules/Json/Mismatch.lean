import SchemaRules.Json.Basic
import SchemaRules.Decimal.Layout
import SchemaRules.Text.Quoted

/-!
# Values of the wrong form

Why a value is not what a document should hold at its place, and the wording of it.
-/

namespace SchemaRules

/-- **Why a value does not fit.** -/
inductive Mismatch where
  /-- A value of another kind than expected. -/
  | kind (found expected : String)
  /-- A list of another length than expected. -/
  | length (found : Nat) (expected : String)
  /-- No alternative of a choice fits. -/
  | noAlternative (choice : String)
  /-- A key that is given twice. -/
  | duplicate (key : String)
  deriving DecidableEq

namespace Mismatch

/-- The wording of a mismatch. -/
def message : Mismatch → String
  | kind found expected => s!"invalid type: {found}, expected {expected}"
  | length found expected => s!"invalid length {found}, expected {expected}"
  | noAlternative choice => s!"data did not match any variant of untagged enum {choice}"
  | duplicate key => s!"duplicate field `{key}`"

end Mismatch

namespace Json

/-- **What kind of value this is**, with the value itself for scalars. -/
def describe : Json → String
  | null => "null"
  | bool b => s!"boolean `{b}`"
  | int n => s!"integer `{n}`"
  | double x => s!"floating point `{Decimal.Layout.document.write x}`"
  | str s => s!"string {Text.quoted s}"
  | arr _ => "sequence"
  | obj _ => "map"

/-- The mismatch of a value where something else is expected. -/
def mismatch (v : Json) (expected : String) : Mismatch :=
  .kind v.describe expected

/-- The text of a string value. -/
def asText : Json → Except Mismatch String
  | str s => .ok s
  | v => .error (v.mismatch "a string")

end Json

end SchemaRules
