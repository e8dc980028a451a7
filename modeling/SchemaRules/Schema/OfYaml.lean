import SchemaRules.Schema.Reader
import SchemaRules.Yaml.Typed

/-!
# Schemas in YAML

A schema is a mapping, and a text without a document is the schema that says nothing. A keyword
may be given once; of extensions with the same key the last one counts.

* `Schema.ofNode?` reads a node. The schema of additional properties, being one alternative of a
  choice, is read strictly.
* `Schema.ofYaml?` reads a text.
-/

namespace SchemaRules.Schema

open Yaml (Node)

/-- One type or a list of types. -/
def nodeTypes? (n : Node) : Option (List String) := do
  match typesOf (← n.content?) with
  | .ok names => return names
  | .error _ => none

/-- A text that null leaves out. -/
def nodeText? (strict : Bool) (n : Node) : Option (Option String) := do
  if ← n.isAbsent? strict then return none else return some (← n.text? strict)

mutual
/-- **The schema that a node holds.** -/
def ofNode? (strict : Bool) : Node → Option Schema
  | .map _ entries => ofNodeEntries? strict entries [] empty
  | .scalar _ .plain "" => if strict then none else some empty
  | _ => none
/-- A schema with the entries that come next; `seen` are the keywords given so far. -/
def ofNodeEntries? (strict : Bool) :
    List (Node × Node) → List String → Schema → Option Schema
  | [], _, s => some s
  | (k, n) :: rest, seen, s => do
    let key ← k.text? strict
    if seen.contains key then none
    let s ←
      match key with
      | "type" => do pure { s with types := ← nodeTypes? n }
      | "format" => do pure { s with format := ← nodeText? strict n }
      | "description" => do pure { s with description := ← nodeText? strict n }
      | "properties" => do pure { s with properties := ← nodeProperties? strict n }
      | "items" => do
        let absent ← n.isAbsent? strict
        let items ← if absent then pure none else some <$> ofNode? strict n
        pure { s with items }
      | "additionalProperties" => do
        let absent ← n.isAbsent? strict
        let additional ← if absent then pure none else some <$> nodeAdditional? n
        pure { s with additional }
      | "required" => do pure { s with required := ← n.texts? strict }
      | "nullable" => do pure { s with nullable := ← n.flag? strict }
      | _ => do pure (s.extend key (← n.content?))
    ofNodeEntries? strict rest (if keywords.contains key then key :: seen else seen) s
/-- The properties that a mapping lists. -/
def nodeProperties? (strict : Bool) : Node → Option (List (String × Schema))
  | .map _ entries => nodePropertyEntries? strict entries []
  | .scalar _ .plain "" => if strict then none else some []
  | _ => none
/-- Properties put into given ones. -/
def nodePropertyEntries? (strict : Bool) :
    List (Node × Node) → List (String × Schema) → Option (List (String × Schema))
  | [], properties => some properties
  | (k, n) :: rest, properties => do
    let name ← k.text? strict
    let s ← ofNode? strict n
    nodePropertyEntries? strict rest (Fields.insert name s properties)
/-- What is said about additional properties. The value has to be one that a choice can hold. -/
def nodeAdditional? : Node → Option (Bool ⊕ Schema)
  | .map tag entries => do
    let _ ← (Node.map tag entries).content?
    return .inr (← ofNodeEntries? true entries [] empty)
  | n => (n.flag? true).map .inl
end

/-- **The schema that a YAML text writes.** -/
def ofYaml? (text : String) : Option Schema := do
  let d ← Yaml.Document.ofText? text
  match d.root with
  | none => return empty
  | some t => ofNode? false (← d.node? 0 t)

end SchemaRules.Schema
