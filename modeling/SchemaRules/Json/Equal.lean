import SchemaRules.Decimal.Exact
import SchemaRules.Json.Basic

/-!
# Equality by size

As JSON has only one kind of number, `1` and `1.0` are equal here. Objects are equal when they
have the same keys and equal values.

* `Json.equal` is this equality.
* `Json.size?` is the size of a number.
-/

namespace SchemaRules.Json

/-- The size of a number. -/
def size? : Json → Option Decimal.Exact
  | int n => some (.ofInt n)
  | double x => some (.ofFloat x)
  | _ => none

/-- A number as a double. -/
def toDouble? : Json → Option Float
  | int n => some (Float.ofInt n)
  | double x => some x
  | _ => none

/-- Whether two numbers have the same size. -/
def sameSize (a b : Json) : Bool :=
  match a.size?, b.size? with
  | some a, some b => a.compare b == .eq
  | _, _ => false

mutual
/-- **Whether two values are equal.** -/
def equal : Json → Json → Bool
  | null, null => true
  | bool a, bool b => a == b
  | str a, str b => a == b
  | arr a, arr b => equalItems a b
  | obj a, obj b => equalFields a b
  | a, b => sameSize a b
/-- Whether two lists have equal items. -/
def equalItems : List Json → List Json → Bool
  | [], [] => true
  | x :: xs, y :: ys => x.equal y && equalItems xs ys
  | _, _ => false
/-- Whether two lists have the same keys and equal values. -/
def equalFields : List (String × Json) → List (String × Json) → Bool
  | [], [] => true
  | (k, x) :: xs, (l, y) :: ys => k == l && x.equal y && equalFields xs ys
  | _, _ => false
end

/-- Whether no two items are equal. -/
def areDistinct : List Json → Bool
  | [] => true
  | x :: rest => !(rest.any x.equal) && areDistinct rest

end SchemaRules.Json
