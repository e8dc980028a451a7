import SchemaRules.Fields
import SchemaRules.Json.Basic

/-!
# Schemas

A schema node keeps the keywords that describe its structure as fields and every other
entry of the document as an extension.

* `Schema.shape` tells what kind of value a node describes: a node without a type that
  has properties or a schema for additional properties describes an object.
* `Schema.mapValues?` is the schema of additional properties.
* `Schema.Canonical`: names ascend at every node, as reading and writing leave them.
-/

namespace SchemaRules

/-- **A schema node.** Additional properties are allowed or forbidden as a whole, or described
by a schema. -/
structure Schema where
  types : List String
  format : Option String
  description : Option String
  properties : List (String × Schema)
  items : Option Schema
  additional : Option (Bool ⊕ Schema)
  required : List String
  nullable : Bool
  extensions : List (String × Json)
  deriving Inhabited

/-- Why a node describes no kind of value. -/
inductive ShapeError where
  | missingType
  | unsupportedType (name : String)
  | missingItems
  deriving DecidableEq

/-- The wording of a missing shape. -/
def ShapeError.message : ShapeError → String
  | missingType => "schema node has no type"
  | unsupportedType name => s!"unsupported schema type '{name}'"
  | missingItems => "array schema has no items"

/-- **What kind of value a node describes.** -/
inductive Shape where
  | object (properties : List (String × Schema))
  | map (values : Schema)
  | array (items : Schema)
  | string (byte : Bool)
  | integer
  | number
  | boolean

/-- Whether the values are scalars. -/
def Shape.isScalar : Shape → Bool
  | string _ | integer | number | boolean => true
  | object _ | map _ | array _ => false

namespace Schema

/-- The schema that says nothing. -/
def empty : Schema :=
  ⟨[], none, none, [], none, none, [], false, []⟩

mutual
/-- The names of properties and the keys of extensions ascend strictly at every node. -/
def Canonical : Schema → Prop
  | ⟨_, _, _, properties, items, additional, _, _, extensions⟩ =>
    Fields.Ordered properties ∧ Fields.Ordered extensions ∧ CanonicalProperties properties ∧
      CanonicalItems items ∧ CanonicalAdditional additional
/-- The schema of every property is canonical. -/
def CanonicalProperties : List (String × Schema) → Prop
  | [] => True
  | (_, s) :: rest => s.Canonical ∧ CanonicalProperties rest
/-- The schema of items, if there is one, is canonical. -/
def CanonicalItems : Option Schema → Prop
  | none => True
  | some s => s.Canonical
/-- The schema of additional properties, if there is one, is canonical. -/
def CanonicalAdditional : Option (Bool ⊕ Schema) → Prop
  | some (.inr s) => s.Canonical
  | _ => True
end

/-- The schema of additional properties, if there is one. -/
def mapValues? (s : Schema) : Option Schema :=
  match s.additional with
  | some (.inr values) => some values
  | _ => none

/-- The first type, or `object` for a node that describes members. -/
def typeName? (s : Schema) : Option String :=
  match s.types with
  | name :: _ => some name
  | [] => if s.properties.isEmpty && s.mapValues?.isNone then none else some "object"

/-- **The kind of value** that the node describes. -/
def shape (s : Schema) : Except ShapeError Shape :=
  match s.typeName? with
  | none => .error .missingType
  | some "object" =>
    match s.additional with
    | some (.inr values) => .ok (.map values)
    | _ => .ok (.object s.properties)
  | some "array" =>
    match s.items with
    | some items => .ok (.array items)
    | none => .error .missingItems
  | some "string" => .ok (.string (s.format == some "byte"))
  | some "integer" => .ok .integer
  | some "number" => .ok .number
  | some "boolean" => .ok .boolean
  | some name => .error (.unsupportedType name)

/-- Whether a member must be present. -/
def isRequired (s : Schema) (name : String) : Bool :=
  s.required.contains name

/-- The schema of a listed property. -/
def property? (s : Schema) (name : String) : Option Schema :=
  Fields.get? name s.properties

end Schema

end SchemaRules
