import SchemaRules.Value.Basic

/-!
# Comparing values

* `Value.equal`: numbers are compared by size across their kinds, whole numbers exactly
  and with a double after rounding to a double; values of other different kinds differ. The order
  of the entries of a map makes no difference.
* `Value.compare?`: numbers across their kinds, and truth values, texts, spans and
  points in time among themselves; nothing else has an order.
-/

namespace SchemaRules.Value

/-- A whole number as the nearest double. -/
def toDouble (n : Int) : Float :=
  Float.ofInt n

mutual
/-- **Whether two values are equal.** -/
def equal : Value → Value → Bool
  | null, null => true
  | bool a, bool b => a == b
  | int a, int b => a == b
  | uint a, uint b => a == b
  | double a, double b => a == b
  | int a, uint b => a == b
  | uint a, int b => a == b
  | int a, double b => toDouble a == b
  | uint a, double b => toDouble a == b
  | double a, int b => a == toDouble b
  | double a, uint b => a == toDouble b
  | str a, str b => a == b
  | bytes a, bytes b => a == b
  | list a, list b => equalItems a b
  | map a, map b => a.length == b.length && equalEntries a b
  | duration a, duration b => a == b
  | timestamp a, timestamp b => a.compare b == .eq
  | _, _ => false
/-- Whether two lists have equal items. -/
def equalItems : List Value → List Value → Bool
  | [], [] => true
  | a :: as, b :: bs => a.equal b && equalItems as bs
  | _, _ => false
/-- Whether entries are found in a map, each with an equal value. -/
def equalEntries : List (Key × Value) → List (Key × Value) → Bool
  | [], _ => true
  | (k, a) :: as, bs =>
    (match lookup? k bs with
      | some b => a.equal b
      | none => false) && equalEntries as bs
end

/-- The order of two doubles; none when one of them is not a number. -/
def compareDoubles (a b : Float) : Option Ordering :=
  if a < b then some .lt
  else if b < a then some .gt
  else if a == b then some .eq
  else none

/-- **The order of two values**, where they have one. -/
def compare? : Value → Value → Option Ordering
  | int a, int b => some (Ord.compare a b)
  | uint a, uint b => some (Ord.compare a b)
  | int a, uint b => some (Ord.compare a (b : Int))
  | uint a, int b => some (Ord.compare (a : Int) b)
  | double a, double b => compareDoubles a b
  | int a, double b => compareDoubles (toDouble a) b
  | uint a, double b => compareDoubles (toDouble a) b
  | double a, int b => compareDoubles a (toDouble b)
  | double a, uint b => compareDoubles a (toDouble b)
  | null, null => some .eq
  | bool a, bool b => some (Ord.compare a b)
  | str a, str b => some (Ord.compare a b)
  | duration a, duration b => some (Ord.compare a.nanoseconds b.nanoseconds)
  | timestamp a, timestamp b => some (a.compare b)
  | _, _ => none

end SchemaRules.Value
