import SchemaRules.Decimal.Layout
import SchemaRules.Value.Basic

/-!
# Values in messages

The form in which messages show values: the kind, and in parentheses the content.
-/

namespace SchemaRules

/-- A key in messages. -/
def Key.inspect : Key → String
  | int n => s!"Int({n})"
  | uint n => s!"Uint({n})"
  | bool b => s!"Bool({b})"
  | str s => s!"String({Text.quoted s})"

namespace Value

mutual
/-- **A value in messages.** -/
def inspect : Value → String
  | null => "Null"
  | bool b => s!"Bool({b})"
  | int n => s!"Int({n})"
  | uint n => s!"UInt({n})"
  | double x => s!"Float({Decimal.Layout.message.write x})"
  | str s => s!"String({Text.quoted s})"
  | bytes b =>
    let numbers := Text.joinWith ", " (b.map fun x => toString x.toNat)
    s!"Bytes([{numbers}])"
  | list items =>
    let texts := Text.joinWith ", " (inspectItems items)
    s!"List([{texts}])"
  | map entries =>
    let texts := Text.joinWith ", " (inspectEntries entries)
    s!"Map(Map \x7b map: \x7b{texts}\x7d \x7d)"
  | duration d => s!"Duration({d.inspect})"
  | timestamp t => s!"Timestamp({t.write})"
/-- Items in messages. -/
def inspectItems : List Value → List String
  | [] => []
  | v :: rest => v.inspect :: inspectItems rest
/-- Entries in messages. -/
def inspectEntries : List (Key × Value) → List String
  | [] => []
  | (k, v) :: rest => s!"{k.inspect}: {v.inspect}" :: inspectEntries rest
end

end Value

end SchemaRules
