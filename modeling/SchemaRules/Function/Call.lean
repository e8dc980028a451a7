import SchemaRules.Value.Fault

/-!
# Calls

A call has perhaps a receiver, and arguments, each of which has a value or is at fault. A
function looks at its arguments in order, and the first that is missing, at fault or of
the wrong kind decides.

* `Call.method` is a call on a value. `Call.receiver` is what a method is called on; without a
  receiver it is the first argument.
* `Call.arg` is an argument by its place.
-/

namespace SchemaRules

/-- **A call**: what the function is called on, and the outcomes of the arguments. -/
structure Call where
  target : Option Value
  args : List (Except Fault Value)

namespace Call

/-- The call of a method on a value, with the values of its arguments. -/
def method (v : Value) (args : List Value) : Call :=
  ⟨some v, args.map .ok⟩

/-- **The argument at a place.** -/
def arg (c : Call) (i : Nat) : Except Fault Value :=
  match c.args[i]? with
  | some outcome => outcome
  | none => .error (.argumentCount (i + 1) c.args.length)

/-- **The receiver**, or the first argument in its place. That argument must have a value. -/
def receiver (c : Call) : Except Fault Value :=
  match c.target with
  | some v => .ok v
  | none =>
    match c.args.head? with
    | some (.ok v) => .ok v
    | _ => .error .missingArgument

/-- The argument at a place behind the receiver. -/
def behind (c : Call) (i : Nat) : Except Fault Value :=
  c.arg (if c.target.isSome then i else i + 1)

/-- The values of all arguments. -/
def all (c : Call) : Except Fault (List Value) :=
  c.args.mapM id

end Call

namespace Value

/-- The text that a value must be. -/
def toText : Value → Except Fault String
  | str s => .ok s
  | v => .error (.unexpectedKind v "Arc<String>")

/-- The point in time that a value must be. -/
def toInstant : Value → Except Fault Time.Instant
  | timestamp t => .ok t
  | v => .error (.unexpectedKind v "chrono::DateTime<chrono::FixedOffset>")

end Value

end SchemaRules
