import SchemaRules.Value.Compare
import SchemaRules.Value.Fault

/-!
# Operators

The operators on values. Arithmetic does not mix kinds of numbers, and a result that
does not fit its kind is a fault.
-/

namespace SchemaRules.Value

/-- The truth value that a condition must be. -/
def toBool : Value → Except Fault Bool
  | bool b => .ok b
  | _ => .error .noSuchOverload

/-- A signed result, if it fits. -/
def fitInt (operator : String) (left right : Value) (n : Int) : Answer :=
  if isInt n then .ok (int n) else .error (.overflow operator left right)

/-- An unsigned result, if it fits. -/
def fitUint (operator : String) (left right : Value) (n : Int) : Answer :=
  if isUint n then .ok (uint n.toNat) else .error (.overflow operator left right)

/-- A span that is not beyond the limit. -/
def fitSpan (operator : String) (left right : Value) (n : Int) : Answer :=
  match Time.Span.checked n with
  | some d => .ok (duration d)
  | none => .error (.overflow operator left right)

/-- A point in time of the years that are counted. -/
def fitInstant (operator : String) (left right : Value) (t : Time.Instant) (first last : Int) :
    Answer :=
  if t.isWithin first last then .ok (timestamp t) else .error (.overflow operator left right)

/-- **The sum.** -/
def add : Value → Value → Answer
  | int a, int b => fitInt "add" (int a) (int b) (a + b)
  | uint a, uint b => fitUint "add" (uint a) (uint b) (a + b)
  | double a, double b => .ok (double (a + b))
  | list a, list b => .ok (list (a ++ b))
  | str a, str b => .ok (str (a ++ b))
  | duration a, duration b =>
    fitSpan "add" (duration a) (duration b) (a.nanoseconds + b.nanoseconds)
  | timestamp a, duration b =>
    fitInstant "add" (timestamp a) (duration b) (a.add b) 1 10000
  | duration a, timestamp b =>
    fitInstant "add" (duration a) (timestamp b) (b.add a) (-262143) 262143
  | a, b => .error (.badOperands "add" a b)

/-- **The difference.** -/
def sub : Value → Value → Answer
  | int a, int b => fitInt "sub" (int a) (int b) (a - b)
  | uint a, uint b => fitUint "sub" (uint a) (uint b) ((a : Int) - b)
  | double a, double b => .ok (double (a - b))
  | duration a, duration b =>
    fitSpan "sub" (duration a) (duration b) (a.nanoseconds - b.nanoseconds)
  | timestamp a, duration b =>
    fitInstant "sub" (timestamp a) (duration b) (a.add ⟨-b.nanoseconds⟩) 1 10000
  | timestamp a, timestamp b => .ok (duration (a.since b))
  | a, b => .error (.badOperands "sub" a b)

/-- **The product.** -/
def mul : Value → Value → Answer
  | int a, int b => fitInt "mul" (int a) (int b) (a * b)
  | uint a, uint b => fitUint "mul" (uint a) (uint b) (a * b)
  | double a, double b => .ok (double (a * b))
  | a, b => .error (.badOperands "mul" a b)

/-- **The quotient**, cut toward zero. -/
def div : Value → Value → Answer
  | int a, int b =>
    if b = 0 then .error (.divisionByZero (int a))
    else fitInt "div" (int a) (int b) (Int.tdiv a b)
  | uint a, uint b =>
    if b = 0 then .error (.divisionByZero (uint a)) else .ok (uint (a / b))
  | double a, double b => .ok (double (a / b))
  | a, b => .error (.badOperands "div" a b)

/-- **The remainder**, with the sign of the dividend. It overflows where the quotient does. -/
def rem : Value → Value → Answer
  | int a, int b =>
    if b = 0 then .error (.remainderByZero (int a))
    else if isInt (Int.tdiv a b) then .ok (int (Int.tmod a b))
    else .error (.overflow "rem" (int a) (int b))
  | uint a, uint b =>
    if b = 0 then .error (.remainderByZero (uint a)) else .ok (uint (a % b))
  | a, b => .error (.badOperands "rem" a b)

/-- **The number with the opposite sign.** The smallest signed number has none. -/
def negate : Value → Answer
  | int n =>
    if n = intMin then .error (.breakdown "attempt to negate with overflow") else .ok (int (-n))
  | double x => .ok (double (-x))
  | v => .error (.badOperand "minus" v)

/-- Whether the order of two values is one that a comparison accepts. -/
def ordered (accepts : Ordering → Bool) (a b : Value) : Answer :=
  match a.compare? b with
  | some o => .ok (bool (accepts o))
  | none => .error (.notComparable a b)

/-- **Whether the first value is in the second**: a text in a text, an item in a list, a key in a
map. -/
def isIn : Value → Value → Answer
  | str a, str b => .ok (bool (Text.find? a.toList b.toList).isSome)
  | v, list items => .ok (bool (items.any (equal · v)))
  | v, map entries =>
    match v.toKey? with
    | some key => .ok (bool (lookup? key entries).isSome)
    | none => .ok (bool false)
  | a, b => .error (.notComparable a b)

/-- A signed number as an unsigned one of the same size, or the other way round. -/
def otherKey? : Key → Option Key
  | .int n => if 0 ≤ n then some (.uint n.toNat) else none
  | .uint n => if isInt n then some (.int n) else none
  | _ => none

/-- **The item of a list or the entry of a map.** A missing entry is null; whole numbers find
entries of either kind. -/
def index : Value → Value → Answer
  | list items, i =>
    let at? (n : Int) : Answer :=
      match (if 0 ≤ n then items[n.toNat]? else none) with
      | some v => .ok v
      | none => .error (.outOfBounds i)
    match i with
    | int n => at? n
    | uint n => at? n
    | _ => .error (.badListIndex i)
  | map entries, i =>
    match i.toKey? with
    | some key =>
      match lookup? key entries with
      | some v => .ok v
      | none => .ok (((otherKey? key).bind fun k => lookup? k entries).getD null)
    | none => .error (.badMapIndex i)
  | str _, int n => .error (.noSuchKey (toString n))
  | v, i => .error (.notIndexable v i)

/-- **The member of a map** under a text. -/
def member (v : Value) (name : String) : Answer :=
  match v with
  | map entries =>
    match lookup? (.str name) entries with
    | some w => .ok w
    | none => .error (.noSuchKey name)
  | _ => .error (.noSuchKey name)

/-- **Whether a map has a member** under a text; nothing else has members. -/
def hasMember (v : Value) (name : String) : Bool :=
  match v with
  | map entries => (lookup? (.str name) entries).isSome
  | _ => false

end SchemaRules.Value
