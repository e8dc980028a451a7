import SchemaRules.Structure.Violation

/-!
# Well-formed schemas

A schema is true, false or an object, and each keyword in it asks for a form. Keywords belong
to vocabularies, which are gone through one after the other.

* `Structure.formOf?` is the table of keywords.
* `Structure.offence?` tells the first thing that is wrong with a schema: the first vocabulary
  with an offence counts, and in it the first keyword.
-/

namespace SchemaRules.Structure

/-- **The form that a keyword asks for.** -/
inductive Form where
  | schema
  | schemas
  | schemaMap
  | patternMap
  | dependencies
  | types
  | value
  | list
  | number
  | divisor
  | count
  | flag
  | text
  | pattern
  | texts
  | textsMap
  deriving DecidableEq

/-- The vocabularies in their order, and the forms of their keywords. -/
def vocabularies : List (List (String × Form)) :=
  [[("$anchor", .text), ("$comment", .text), ("$defs", .schemaMap), ("$dynamicAnchor", .text),
      ("$dynamicRef", .text), ("$id", .text), ("$ref", .text), ("$schema", .text)],
    [("additionalProperties", .schema), ("allOf", .schemas), ("anyOf", .schemas),
      ("contains", .schema), ("dependentSchemas", .schemaMap), ("else", .schema), ("if", .schema),
      ("items", .schema), ("not", .schema), ("oneOf", .schemas),
      ("patternProperties", .patternMap), ("prefixItems", .schemas), ("properties", .schemaMap),
      ("propertyNames", .schema), ("then", .schema)],
    [("unevaluatedItems", .schema), ("unevaluatedProperties", .schema)],
    [("const", .value), ("dependentRequired", .textsMap), ("enum", .list),
      ("exclusiveMaximum", .number), ("exclusiveMinimum", .number), ("maxContains", .count),
      ("maxItems", .count), ("maxLength", .count), ("maxProperties", .count),
      ("maximum", .number), ("minContains", .count), ("minItems", .count), ("minLength", .count),
      ("minProperties", .count), ("minimum", .number), ("multipleOf", .divisor),
      ("pattern", .pattern), ("required", .texts), ("type", .types), ("uniqueItems", .flag)],
    [("default", .value), ("deprecated", .flag), ("description", .text), ("examples", .list),
      ("readOnly", .flag), ("title", .text), ("writeOnly", .flag)],
    [("format", .text)],
    [("contentEncoding", .text), ("contentMediaType", .text), ("contentSchema", .schema)],
    [("definitions", .schemaMap), ("dependencies", .dependencies)]]

/-- The number of the vocabulary of a keyword, and its form. -/
def formOf? (keyword : String) : Option (Nat × Form) :=
  vocabularies.zipIdx.findSome? fun v => (v.1.lookup keyword).map fun form => (v.2, form)

/-- What is said of a value that is of none of some kinds. -/
def kindOffence? (ks : List Kind) (v : Json) : Option String :=
  (Demand.kinds ks).breach? v

/-- The first offence of a list of texts. -/
def textsOffence? (v : Json) : Option String :=
  ((itemsOf v).findSome? (kindOffence? [.string])).or
    ((kindOffence? [.array] v).or (Demand.distinct.breach? v))

/-- Whether a value is a name of a kind. -/
def isKindName : Json → Bool
  | .str s => (Kind.ofName? s).isSome
  | _ => false

/-- What is said of a value that is none of several things. -/
def noneOffence (v : Json) : String :=
  s!"{v.render} is not valid under any of the schemas listed in the 'anyOf' keyword"

/-- What is said of a text that is no pattern. -/
def patternOffence? : Json → Option String
  | .str s =>
    if (Pattern.ofText? .document s).isNone then some s!"{(Json.str s).render} is not a \"regex\""
    else none
  | _ => none

/-- **The first offence against a form** in which no schemas stand. -/
def valueOffence? (form : Form) (v : Json) : Option String :=
  match form with
  | .types =>
    match v with
    | .arr names =>
      if !names.isEmpty && names.all isKindName && Json.areDistinct names then none
      else some (noneOffence v)
    | v => if isKindName v then none else some (noneOffence v)
  | .list => kindOffence? [.array] v
  | .number => kindOffence? [.number] v
  | .divisor =>
    ((Demand.bound .exclusiveMinimum (.int 0)).breach? v).or (kindOffence? [.number] v)
  | .count => ((Demand.bound .minimum (.int 0)).breach? v).or (kindOffence? [.integer] v)
  | .flag => kindOffence? [.boolean] v
  | .text => kindOffence? [.string] v
  | .pattern => (patternOffence? v).or (kindOffence? [.string] v)
  | .texts => textsOffence? v
  | .textsMap =>
    ((fieldsOf v).findSome? fun f => textsOffence? f.2).or (kindOffence? [.object] v)
  | .schemas => kindOffence? [.array] v
  | .schemaMap => kindOffence? [.object] v
  | .patternMap => kindOffence? [.object] v
  | .dependencies => kindOffence? [.object] v
  | .schema => none
  | .value => none

/-- The first of numbered offences with the smallest number. -/
def firstOf? (offences : List (Nat × String)) : Option String :=
  ((List.range vocabularies.length).findSome? fun n => offences.find? (·.1 == n)).map Prod.snd

mutual
/-- **The first offence of a schema.** -/
def offence? : Json → Option String
  | .bool _ => none
  | .obj fields => firstOf? (offencesIn fields)
  | v => kindOffence? [.boolean, .object] v
/-- The first offence of each keyword, with the number of its vocabulary. -/
def offencesIn : List (String × Json) → List (Nat × String)
  | [] => []
  | (keyword, v) :: rest =>
    let found : Option (Nat × String) :=
      match formOf? keyword with
      | none => none
      | some (n, form) =>
        let offence := match form, v with
          | .schema, v => offence? v
          | .schemas, .arr items =>
            (itemsOffence? items).or
              ((Demand.limit ⟨.items, true, 1⟩).breach? (.arr items))
          | .schemaMap, .obj fields => fieldsOffence? fields
          | .patternMap, .obj fields =>
            (fieldsOffence? fields).or
              ((Fields.names fields).findSome? fun name => patternOffence? (.str name))
          | .dependencies, .obj fields => dependenciesOffence? fields
          | form, v => valueOffence? form v
        offence.map fun message => (n, message)
    found.toList ++ offencesIn rest
/-- The first offence of schemas. -/
def itemsOffence? : List Json → Option String
  | [] => none
  | v :: rest => (offence? v).or (itemsOffence? rest)
/-- The first offence of named schemas. -/
def fieldsOffence? : List (String × Json) → Option String
  | [] => none
  | (_, v) :: rest => (offence? v).or (fieldsOffence? rest)
/-- The first part that is neither a schema nor a list of texts. -/
def dependenciesOffence? : List (String × Json) → Option String
  | [] => none
  | (_, v) :: rest =>
    if (offence? v).isSome && (textsOffence? v).isSome then some (noneOffence v)
    else dependenciesOffence? rest
end

end SchemaRules.Structure
