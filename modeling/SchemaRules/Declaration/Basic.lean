import SchemaRules.Fields

/-!
# Declarations

The type at which the rules of a node see a value. An object has a name, which tells
nested objects apart.
-/

namespace SchemaRules

/-- **The declared type of a value.** -/
inductive Declaration where
  | bool
  | int
  | double
  | string
  | list (items : Declaration)
  | map (values : Declaration)
  | object (name : String) (fields : List (String × Declaration))
  deriving Inhabited

namespace Declaration

/-- Whether the values are scalars. -/
def isScalar : Declaration → Bool
  | bool | int | double | string => true
  | list _ | map _ | object _ _ => false

mutual
/-- Whether a map occurs in the declaration. -/
def containsMap : Declaration → Bool
  | map _ => true
  | list items => items.containsMap
  | object _ fields => containsMapFields fields
  | _ => false
/-- Whether a map occurs in one of the fields. -/
def containsMapFields : List (String × Declaration) → Bool
  | [] => false
  | (_, d) :: rest => d.containsMap || containsMapFields rest
end

/-- The fields of an object. -/
def fields? : Declaration → Option (List (String × Declaration))
  | object _ fields => some fields
  | _ => none

mutual
/-- Whether two declarations are the same, names of objects included. -/
def same : Declaration → Declaration → Bool
  | bool, bool => true
  | int, int => true
  | double, double => true
  | string, string => true
  | list a, list b => a.same b
  | map a, map b => a.same b
  | object m a, object n b => m == n && sameFields a b
  | _, _ => false
/-- Whether two lists hold the same fields in the same order. -/
def sameFields : List (String × Declaration) → List (String × Declaration) → Bool
  | [], [] => true
  | (k, a) :: as, (l, b) :: bs => k == l && a.same b && sameFields as bs
  | _, _ => false
end

/-- **The declaration in words.** -/
def describe : Declaration → String
  | bool => "bool"
  | int => "int"
  | double => "double"
  | string => "string"
  | list items => s!"list({items.describe})"
  | map values => s!"map(string, {values.describe})"
  | object name _ => s!"object({name})"

end Declaration

end SchemaRules
