import SchemaRules.Value.Inspect

/-!
# Faults

Why an expression has no value, and the wording of it. An operator is called by its
name in messages.
-/

namespace SchemaRules

/-- **Why an expression has no value.** -/
inductive Fault where
  | argumentCount (expected actual : Nat)
  | missingArgument
  | unexpectedKind (found : Value) (expected : String)
  | noSuchKey (key : String)
  | noSuchOverload
  | undeclared (name : String)
  | notComparable (left right : Value)
  | badOperand (operator : String) (operand : Value)
  | badOperands (operator : String) (left right : Value)
  | overflow (operator : String) (left right : Value)
  | divisionByZero (dividend : Value)
  | remainderByZero (dividend : Value)
  | outOfBounds (index : Value)
  | badListIndex (index : Value)
  | badMapIndex (index : Value)
  | notIndexable (value index : Value)
  | badKey (value : Value)
  /-- A function that cannot answer. -/
  | function (name message : String)
  /-- An evaluation that breaks down. -/
  | breakdown (message : String)

/-- **The wording of a fault.** -/
def Fault.message : Fault → String
  | argumentCount expected actual =>
    s!"Invalid argument count: expected {expected}, got {actual}"
  | missingArgument => "Missing argument or target"
  | unexpectedKind found expected =>
    s!"Unexpected type: got '{found.inspect}', want '{expected}'"
  | noSuchKey key => s!"No such key: {key}"
  | noSuchOverload => "No such overload"
  | undeclared name => s!"Undeclared reference to '{name}'"
  | notComparable left right => s!"{left.inspect} can not be compared to {right.inspect}"
  | badOperand operator operand =>
    s!"Unsupported unary operator '{operator}': {operand.inspect}"
  | badOperands operator left right =>
    s!"Unsupported binary operator '{operator}': {left.inspect}, {right.inspect}"
  | overflow operator left right =>
    s!"Overflow from binary operator '{operator}': {left.inspect}, {right.inspect}"
  | divisionByZero dividend => s!"Division by zero of {dividend.inspect}"
  | remainderByZero dividend => s!"Remainder by zero of {dividend.inspect}"
  | outOfBounds index => s!"Index out of bounds: {index.inspect}"
  | badListIndex index => s!"Cannot use value as list index: {index.inspect}"
  | badMapIndex index => s!"Cannot use value as map index: {index.inspect}"
  | notIndexable value index =>
    s!"Cannot use value {value.inspect} to index {index.inspect}"
  | badKey value => s!"Unable to use value '{value.inspect}' as a key"
  | function name message => s!"Error executing function '{name}': {message}"
  | breakdown message => message

/-- **What an expression yields**: a value or a fault. -/
abbrev Answer := Except Fault Value

end SchemaRules
