import SchemaRules.Structure.Check

/-!
# Checks of schemas

* `Check.ofJson` is the check of a schema. The parts of an object schema become operands first,
  since some demands take account of other keywords beside their own.
* `Json.at?` follows a pointer from the root of a document.
-/

namespace SchemaRules

/-- **The part under a keyword**, with the checks of the schemas in it. -/
inductive Operand where
  | value (v : Json)
  | check (v : Json) (c : Check)
  | checks (cs : List Check)
  | named (fields : List (String × Check))

/-- Which schemas stand under a keyword. -/
inductive Holding where
  | one
  | list
  | map
  deriving DecidableEq

/-- The schemas that stand under a keyword. -/
def Holding.of? (keyword : String) : Option Holding :=
  if ["additionalProperties", "propertyNames", "items", "contains", "not", "if", "then",
      "else"].contains keyword then some .one
  else if ["prefixItems", "allOf", "anyOf", "oneOf"].contains keyword then some .list
  else if ["properties", "patternProperties", "dependentSchemas", "dependencies"].contains keyword
    then some .map
  else none

/-- The texts in a list. -/
def Json.textsIn (v : Json) : List String :=
  match v with
  | .arr items => items.filterMap fun
    | .str s => some s
    | _ => none
  | _ => []

/-- The whole number that a value is, of either kind of number. -/
def Json.count? : Json → Option Nat
  | .int n => some n.toNat
  | .double x => some x.toUInt64.toNat
  | _ => none

/-- The kinds that a type names. -/
def Json.kinds : Json → List Kind
  | .str name => (Kind.ofName? name).toList
  | v => v.textsIn.filterMap Kind.ofName?

/-- A demand on a number of things. -/
def limitOf (counted : Counted) (isLeast : Bool) (v : Json) : Option Demand :=
  v.count?.map fun n => .limit ⟨counted, isLeast, n⟩

/-- **The demand of a keyword** whose part is a mere value. -/
def Demand.ofValue? (keyword : String) (v : Json) : Option Demand :=
  match keyword with
  | "type" => some (.kinds v.kinds)
  | "enum" =>
    match v with
    | .arr vs => some (.options vs)
    | _ => none
  | "const" => some (.exactly v)
  | "minimum" => some (.bound .minimum v)
  | "maximum" => some (.bound .maximum v)
  | "exclusiveMinimum" => some (.bound .exclusiveMinimum v)
  | "exclusiveMaximum" => some (.bound .exclusiveMaximum v)
  | "multipleOf" => some (.multiple v)
  | "minLength" => limitOf .characters true v
  | "maxLength" => limitOf .characters false v
  | "minItems" => limitOf .items true v
  | "maxItems" => limitOf .items false v
  | "minProperties" => limitOf .properties true v
  | "maxProperties" => limitOf .properties false v
  | "pattern" =>
    match v with
    | .str s => (Pattern.ofText? .document s).map (.pattern s)
    | _ => none
  | "uniqueItems" =>
    match v with
    | .bool true => some .distinct
    | _ => none
  | "required" => some (.required v.textsIn)
  | "dependentRequired" =>
    match v with
    | .obj fields =>
      some (.dependent (fields.map fun f => (f.1, .all [("", .required f.2.textsIn)])))
    | _ => none
  | "$ref" =>
    match v with
    | .str target => some (.reference target)
    | _ => none
  | _ => none

/-- The operands of a schema. -/
abbrev Operands := List (String × Operand)

namespace Operands

/-- The check under a keyword. -/
def check? (ops : Operands) (keyword : String) : Option Check :=
  match ops.lookup keyword with
  | some (.check _ c) => some c
  | _ => none

/-- The named checks under a keyword. -/
def named? (ops : Operands) (keyword : String) : Option (List (String × Check)) :=
  match ops.lookup keyword with
  | some (.named fields) => some fields
  | _ => none

/-- The count under a keyword. -/
def count? (ops : Operands) (keyword : String) : Option Nat :=
  match ops.lookup keyword with
  | some (.value v) => v.count?
  | _ => none

/-- The number of checks under a keyword. -/
def length (ops : Operands) (keyword : String) : Nat :=
  match ops.lookup keyword with
  | some (.checks cs) => cs.length
  | _ => 0

/-- The named checks with their names as patterns. -/
def patterns (ops : Operands) : List (String × Pattern × Check) :=
  ((ops.named? "patternProperties").getD []).filterMap fun f =>
    (Pattern.ofText? .document f.1).map fun p => (f.1, p, f.2)

/-- Whether additional properties are forbidden or described by an object, so that their demand is
one on all members. -/
def closesMembers (ops : Operands) : Bool :=
  match ops.lookup "additionalProperties" with
  | some (.check (.bool b) _) => !b
  | some (.check _ _) => true
  | _ => false

/-- The demand of a keyword with a single schema. -/
def ofCheck? (ops : Operands) (keyword : String) (v : Json) (c : Check) : Option Demand :=
  match keyword with
  | "additionalProperties" =>
    if ops.closesMembers then some (.others (ops.named? "properties") ops.patterns c) else none
  | "propertyNames" => some (.names c)
  | "items" => some (.items (ops.length "prefixItems") c)
  | "contains" => some (.contains c (ops.count? "minContains") (ops.count? "maxContains"))
  | "not" => some (.negation v c)
  | "if" => some (.conditional c (ops.check? "then") (ops.check? "else"))
  | _ => none

/-- The demand of a keyword with a list of schemas. -/
def ofChecks? (keyword : String) (cs : List Check) : Option Demand :=
  match keyword with
  | "prefixItems" => some (.places cs)
  | "allOf" => some (.combination .every cs)
  | "anyOf" => some (.combination .any cs)
  | "oneOf" => some (.combination .one cs)
  | _ => none

/-- The demand of a keyword with named schemas. -/
def ofNamed? (ops : Operands) (keyword : String) (fields : List (String × Check)) :
    Option Demand :=
  match keyword with
  | "properties" => if ops.closesMembers then none else some (.members fields)
  | "patternProperties" => if ops.closesMembers then none else some (.matching ops.patterns)
  | "dependentSchemas" => some (.dependent fields)
  | "dependencies" => some (.dependent fields)
  | _ => none

/-- **The demand of a keyword** among its operands. -/
def demand? (ops : Operands) (keyword : String) : Operand → Option Demand
  | .value v => Demand.ofValue? keyword v
  | .check v c => ops.ofCheck? keyword v c
  | .checks cs => ofChecks? keyword cs
  | .named fields => ops.ofNamed? keyword fields

/-- The demands of operands, in their order. -/
def demands (ops : Operands) : List (String × Demand) :=
  ops.filterMap fun o => (ops.demand? o.1 o.2).map fun d => (o.1, d)

end Operands

mutual
/-- **The check of a schema.** A list of names stands for the members that are required. -/
def Check.ofJson : Json → Check
  | .bool false => .never
  | .obj fields => .all (operandsOf fields).demands
  | .arr names => .all [("", .required (Json.textsIn (.arr names)))]
  | _ => .always
/-- The operands of the entries of a schema. -/
def operandsOf : List (String × Json) → Operands
  | [] => []
  | (key, v) :: rest =>
    let operand : Operand :=
      match Holding.of? key, v with
      | some .one, v => .check v (Check.ofJson v)
      | some .list, .arr items => .checks (checksOf items)
      | some .map, .obj fields => .named (namedChecksOf fields)
      | _, v => .value v
    (key, operand) :: operandsOf rest
/-- The checks of schemas. -/
def checksOf : List Json → List Check
  | [] => []
  | v :: rest => Check.ofJson v :: checksOf rest
/-- The checks of named schemas. -/
def namedChecksOf : List (String × Json) → List (String × Check)
  | [] => []
  | (name, v) :: rest => (name, Check.ofJson v) :: namedChecksOf rest
end

/-- The name that a step of a pointer writes. -/
def pointerName (step : List Char) : List Char :=
  match step with
  | [] => []
  | '~' :: '1' :: rest => '/' :: pointerName rest
  | '~' :: '0' :: rest => '~' :: pointerName rest
  | c :: rest => c :: pointerName rest

/-- The part of a document one step further. -/
def Json.step? (v : Json) (name : String) : Option Json :=
  match v with
  | .obj fields => Fields.get? name fields
  | .arr items => (Decimal.readNat? 10 name.toList).bind fun i => items[i]?
  | _ => none

/-- **The part of a document that a reference within it names.** -/
def Json.at? (root : Json) (target : String) : Option Json :=
  match target.toList with
  | ['#'] => some root
  | '#' :: '/' :: pointer =>
    (Text.cut ['/'] pointer).foldlM (fun v step => v.step? (String.ofList (pointerName step))) root
  | _ => none

end SchemaRules
