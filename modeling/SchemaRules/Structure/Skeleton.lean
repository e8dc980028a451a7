import SchemaRules.Json.Basic

/-!
# The skeleton of a schema

A schema document says with `nullable` that a value may be null, and a `format` is a remark.
The skeleton says the same with types alone.

* `Structure.skeleton` goes through all places where a schema describes a part: properties, items
  and additional properties.
* `Structure.widen` lets a node's types accept null.
-/

namespace SchemaRules.Structure

/-- Whether a value is the name of the null type. -/
def isNullName : Json → Bool
  | .str "null" => true
  | _ => false

/-- A type or a list of types, with null. -/
def widenTypes : Json → Json
  | .str name => .arr [.str name, .str "null"]
  | .arr names => .arr (if names.any isNullName then names else names ++ [.str "null"])
  | v => v

/-- **The node with null accepted** by its types, if it has some. -/
def widen (fields : Fields Json) : Fields Json :=
  match Fields.get? "type" fields with
  | some types => Fields.insert "type" (widenTypes types) fields
  | none => fields

/-- Whether a node says that null is accepted. -/
def isNullable (fields : Fields Json) : Bool :=
  match Fields.get? "nullable" fields with
  | some (.bool b) => b
  | _ => false

mutual
/-- **The skeleton of a schema.** -/
def skeleton : Json → Json
  | .obj fields =>
    let kept := skeletonEntries fields
    .obj (if isNullable fields then widen kept else kept)
  | v => v
/-- The entries of a skeleton. -/
def skeletonEntries : List (String × Json) → List (String × Json)
  | [] => []
  | (key, v) :: rest =>
    if key = "nullable" ∨ key = "format" then skeletonEntries rest
    else
      let v' :=
        if key = "properties" then skeletonProperties v
        else if key = "items" ∨ key = "additionalProperties" then skeleton v
        else v
      (key, v') :: skeletonEntries rest
/-- Properties with the skeletons of their schemas. -/
def skeletonProperties : Json → Json
  | .obj fields => .obj (skeletonMembers fields)
  | v => v
/-- Members with the skeletons of their schemas. -/
def skeletonMembers : List (String × Json) → List (String × Json)
  | [] => []
  | (name, v) :: rest => (name, skeleton v) :: skeletonMembers rest
end

end SchemaRules.Structure
