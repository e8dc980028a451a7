import SchemaRules.Declaration.Basic
import SchemaRules.Schema.Basic

/-!
# The declaration of a schema

A node is declared by its shape, and its parts by theirs. An object is named by the way
to it from the root: a field by its name, map values by `@value`, items by `@items`.
-/

namespace SchemaRules

/-- A node that has no shape, and the way to it. -/
structure DeclarationError where
  path : String
  reason : ShapeError
  deriving DecidableEq

/-- The wording of a failed declaration. -/
def DeclarationError.message (e : DeclarationError) : String :=
  s!"cannot declare a type for '{e.path}': {e.reason.message}"

namespace Schema

mutual
/-- **The declaration of a node**, named `name`; the first node without a shape is reported. -/
def declare (name : String) (s : Schema) : Except DeclarationError Declaration :=
  match s with
  | ⟨_, _, _, properties, items, additional, _, _, _⟩ =>
    match s.typeName? with
    | none => .error ⟨name, .missingType⟩
    | some "object" =>
      match additional with
      | some (.inr values) => return .map (← values.declare s!"{name}.@value")
      | _ => return .object name (← declareFields name properties)
    | some "array" =>
      match items with
      | some items => return .list (← items.declare s!"{name}.@items")
      | none => .error ⟨name, .missingItems⟩
    | some "string" => .ok .string
    | some "integer" => .ok .int
    | some "number" => .ok .double
    | some "boolean" => .ok .bool
    | some other => .error ⟨name, .unsupportedType other⟩
/-- The declarations of properties of the node `name`. -/
def declareFields (name : String) :
    List (String × Schema) → Except DeclarationError (List (String × Declaration))
  | [] => .ok []
  | (field, s) :: rest => do
    let d ← s.declare s!"{name}.{field}"
    return (field, d) :: (← declareFields name rest)
end

end Schema

end SchemaRules
