import SchemaRules.Json.Mismatch
import SchemaRules.Schema.Basic

/-!
# Schemas as JSON

* `Schema.ofJson` reads a schema from an object. The entries are read in their order
  and the first one of a wrong form is reported.
* `Schema.toJson` writes the fields that say something, and every extension.
* `Schema.keywords` are the entries that are fields and no extensions.
-/

namespace SchemaRules.Schema

/-- The keywords that are fields of a node. -/
def keywords : List String :=
  ["type", "format", "description", "properties", "items", "additionalProperties", "required",
    "nullable"]

/-- The texts of a list. -/
def textsOf : Json → Except Mismatch (List String)
  | .arr items => items.mapM Json.asText
  | v => .error (v.mismatch "a sequence")

/-- One type or a list of types. -/
def typesOf : Json → Except Mismatch (List String)
  | .str name => .ok [name]
  | v =>
    match textsOf v with
    | .ok names => .ok names
    | .error _ => .error (.noAlternative "OneOrMany")

/-- A text that null leaves out. -/
def optionalText : Json → Except Mismatch (Option String)
  | .null => .ok none
  | v => some <$> v.asText

/-- A truth value. -/
def flagOf : Json → Except Mismatch Bool
  | .bool b => .ok b
  | v => .error (v.mismatch "a boolean")

/-- The node with one more extension. -/
def extend (s : Schema) (key : String) (v : Json) : Schema :=
  { s with extensions := Fields.insert key v s.extensions }

/-- An alternative of a choice, whose own mismatch is not reported. -/
def alternative {α : Type} (choice : String) : Except Mismatch α → Except Mismatch α
  | .ok x => .ok x
  | .error _ => .error (.noAlternative choice)

/-- A schema that null leaves out. -/
def unlessNull (v : Json) (s : Except Mismatch Schema) : Except Mismatch (Option Schema) :=
  match v with
  | .null => .ok none
  | _ => some <$> s

/-- What is said about additional properties, if anything; `s` is the schema that `v` holds. -/
def additionalOf (v : Json) (s : Except Mismatch Schema) :
    Except Mismatch (Option (Bool ⊕ Schema)) :=
  match v with
  | .null => .ok none
  | .bool b => .ok (some (.inl b))
  | _ => alternative "AdditionalProperties" ((fun s => some (.inr s)) <$> s)

mutual
/-- **The schema that a value holds.** -/
def ofJson : Json → Except Mismatch Schema
  | .obj fields => ofEntries fields empty
  | v => .error (v.mismatch "struct Schema")
/-- A node with the entries that come next. -/
def ofEntries : List (String × Json) → Schema → Except Mismatch Schema
  | [], s => .ok s
  | (key, v) :: rest, s => do
    let s ←
      match key with
      | "type" => do pure { s with types := ← typesOf v }
      | "format" => do pure { s with format := ← optionalText v }
      | "description" => do pure { s with description := ← optionalText v }
      | "properties" => do pure { s with properties := ← propertiesOf v }
      | "items" => do pure { s with items := ← unlessNull v (ofJson v) }
      | "additionalProperties" => do
        pure { s with additional := ← additionalOf v (ofJson v) }
      | "required" => do pure { s with required := ← textsOf v }
      | "nullable" => do pure { s with nullable := ← flagOf v }
      | _ => pure (s.extend key v)
    ofEntries rest s
/-- The properties that an object lists. -/
def propertiesOf : Json → Except Mismatch (List (String × Schema))
  | .obj fields => propertyEntries fields
  | v => .error (v.mismatch "a map")
/-- The properties that come next. -/
def propertyEntries : List (String × Json) → Except Mismatch (List (String × Schema))
  | [] => .ok []
  | (name, v) :: rest => do
    let s ← ofJson v
    return (name, s) :: (← propertyEntries rest)
end

/-- An entry, if it is present. -/
def entryIf (key : String) (v : Json) (present : Bool) : List (String × Json) :=
  if present then [(key, v)] else []

/-- The types, one alone without a list. -/
def typesJson : List String → Json
  | [name] => .str name
  | names => .arr (names.map .str)

/-- The entry of a text, if there is one. -/
def textEntry (key : String) : Option String → List (String × Json)
  | some text => [(key, .str text)]
  | none => []

mutual
/-- **The schema as an object**, without the fields that say nothing. -/
def toJson : Schema → Json
  | ⟨types, format, description, properties, items, additional, required, nullable, extensions⟩ =>
    Json.ofEntries (
      entryIf "type" (typesJson types) (!types.isEmpty) ++
      textEntry "format" format ++
      textEntry "description" description ++
      entryIf "properties" (.obj (propertiesJson properties)) (!properties.isEmpty) ++
      itemsEntry items ++
      additionalEntry additional ++
      entryIf "required" (.arr (required.map .str)) (!required.isEmpty) ++
      entryIf "nullable" (.bool true) nullable ++
      extensions)
/-- The properties as entries. -/
def propertiesJson : List (String × Schema) → List (String × Json)
  | [] => []
  | (name, s) :: rest => (name, s.toJson) :: propertiesJson rest
/-- The entry of the items, if they are described. -/
def itemsEntry : Option Schema → List (String × Json)
  | some s => [("items", s.toJson)]
  | none => []
/-- The entry of additional properties, if something is said about them. -/
def additionalEntry : Option (Bool ⊕ Schema) → List (String × Json)
  | some (.inl b) => [("additionalProperties", .bool b)]
  | some (.inr s) => [("additionalProperties", s.toJson)]
  | none => []
end

end SchemaRules.Schema
