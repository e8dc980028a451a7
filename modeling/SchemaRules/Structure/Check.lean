import SchemaRules.Json.Equal
import SchemaRules.Pattern.Parser

/-!
# Checks

What a schema demands of a value, one demand for each keyword. The demands on parts are checks
again.

* A check is `never` or holds all its demands, which stand in the order of their keywords.
* A demand without a keyword stands at the place of its check.
-/

namespace SchemaRules

/-- **A kind of value** that a type names. -/
inductive Kind where
  | array
  | boolean
  | integer
  | null
  | number
  | object
  | string
  deriving DecidableEq, Inhabited

namespace Kind

/-- The kinds in the order of their names. -/
def all : List Kind := [array, boolean, integer, null, number, object, string]

/-- The name of a kind. -/
def name : Kind → String
  | array => "array"
  | boolean => "boolean"
  | integer => "integer"
  | null => "null"
  | number => "number"
  | object => "object"
  | string => "string"

/-- The kind with a name. -/
def ofName? (s : String) : Option Kind :=
  all.find? fun k => k.name == s

/-- **Whether a value is of a kind.** A double without a fraction is an integer too. -/
def accepts : Kind → Json → Bool
  | array, .arr _ => true
  | boolean, .bool _ => true
  | integer, .int _ => true
  | integer, .double x => (Decimal.Exact.ofFloat x).isWhole
  | null, .null => true
  | number, .int _ => true
  | number, .double _ => true
  | object, .obj _ => true
  | string, .str _ => true
  | _, _ => false

end Kind

/-- **A bound of a number.** -/
inductive Bound where
  | minimum
  | maximum
  | exclusiveMinimum
  | exclusiveMaximum
  deriving DecidableEq

namespace Bound

/-- Whether a number keeps a bound, by its order to the limit. -/
def keeps : Bound → Ordering → Bool
  | minimum, o => o != .lt
  | maximum, o => o != .gt
  | exclusiveMinimum, o => o == .gt
  | exclusiveMaximum, o => o == .lt

/-- What a number is that does not keep a bound. -/
def breach : Bound → String
  | minimum => "less than the minimum of"
  | maximum => "greater than the maximum of"
  | exclusiveMinimum => "less than or equal to the minimum of"
  | exclusiveMaximum => "greater than or equal to the maximum of"

end Bound

/-- What is counted in a value. -/
inductive Counted where
  | characters
  | items
  | properties
  deriving DecidableEq

/-- The count in a value that has one. -/
def Counted.of? : Counted → Json → Option Nat
  | characters, .str s => some s.length
  | items, .arr vs => some vs.length
  | properties, .obj fields => some fields.length
  | _, _ => none

/-- **A limit of a count**, the least or the largest. -/
structure Limit where
  counted : Counted
  isLeast : Bool
  count : Nat
  deriving DecidableEq

/-- Whether a count keeps a limit. -/
def Limit.keeps (l : Limit) (n : Nat) : Bool :=
  if l.isLeast then l.count ≤ n else n ≤ l.count

/-- What a value is or has that does not keep a limit. -/
def Limit.breach (l : Limit) : String :=
  let plural (one many : String) : String := if l.count = 1 then one else many
  let phrase := match l.counted, l.isLeast with
    | .characters, true => "is shorter than"
    | .characters, false => "is longer than"
    | _, true => "has less than"
    | _, false => "has more than"
  let unit := match l.counted with
    | .characters => plural "character" "characters"
    | .items => plural "item" "items"
    | .properties => plural "property" "properties"
  s!"{phrase} {l.count} {unit}"

/-- How many of several checks have to hold. -/
inductive Combination where
  | every
  | any
  | one
  deriving DecidableEq

mutual
/-- **What is demanded of a value.** -/
inductive Check where
  | never
  | all (demands : List (String × Demand))
/-- **A single demand.** -/
inductive Demand where
  | kinds (ks : List Kind)
  | options (vs : List Json)
  | exactly (v : Json)
  | bound (b : Bound) (limit : Json)
  | multiple (divisor : Json)
  | limit (l : Limit)
  | pattern (source : String) (p : Pattern)
  | distinct
  | required (names : List String)
  | members (known : List (String × Check))
  | matching (patterns : List (String × Pattern × Check))
  /-- Members that are not known and match no pattern; the check of known ones goes with it. -/
  | others (known : Option (List (String × Check))) (patterns : List (String × Pattern × Check))
      (rest : Check)
  | names (c : Check)
  /-- Items behind the first `skipped` ones. -/
  | items (skipped : Nat) (c : Check)
  | places (cs : List Check)
  | contains (c : Check) (least most : Option Nat)
  | negation (source : Json) (c : Check)
  | combination (how : Combination) (cs : List Check)
  | conditional (condition : Check) (yes no : Option Check)
  /-- Checks of the whole object that has a member. -/
  | dependent (checks : List (String × Check))
  /-- The check at another place of the document. -/
  | reference (target : String)
end

instance : Inhabited Check := ⟨.never⟩

/-- The check that every value passes. -/
def Check.always : Check := .all []

end SchemaRules
