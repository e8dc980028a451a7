import SchemaRules.Declaration.Basic
import SchemaRules.Json.Basic

/-!
# Samples

A sample is data that agrees with a declaration: scalars are zero, a list has one item, an
object has all its fields, and a map has the empty key and the keys of a given list.
-/

namespace SchemaRules.Declaration

mutual
/-- **The sample of a declaration**, with given keys in its maps. -/
def sample (keys : List String) : Declaration → Json
  | bool => .bool false
  | int => .int 0
  | double => .double 0.0
  | string => .str ""
  | list items => .arr [items.sample keys]
  | map values =>
    let v := values.sample keys
    Json.ofEntries (("" :: keys).map fun key => (key, v))
  | object _ fields => .obj (sampleFields keys fields)
/-- The samples of fields. -/
def sampleFields (keys : List String) : List (String × Declaration) → List (String × Json)
  | [] => []
  | (name, d) :: rest => (name, d.sample keys) :: sampleFields keys rest
end

end SchemaRules.Declaration
