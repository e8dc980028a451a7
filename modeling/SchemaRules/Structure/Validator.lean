import SchemaRules.Structure.OfJson
import SchemaRules.Structure.References
import SchemaRules.Structure.Skeleton
import SchemaRules.Structure.WellFormed

/-!
# Structural validation

The structure of a document is checked against the skeleton of a schema.

* `StructureValidator.build` refuses a schema that is not well-formed, or that refers to a place
  that it does not have.
* `StructureValidator.validate` lists all violations of a document.
-/

namespace SchemaRules

/-- **The check of a schema document.** `source` is its skeleton, in which references are
followed. -/
structure StructureValidator where
  source : Json
  check : Check

namespace StructureValidator

/-- What is said of a reference to a place that is not there. -/
def danglingMessage (target : String) : String :=
  s!"Pointer '{(target.drop 1).toString}' does not exist"

/-- **The validator of a schema**, or what is wrong with the schema. -/
def build (schema : Json) : Except String StructureValidator :=
  let source := Structure.skeleton schema
  match Structure.offence? source with
  | some message => .error message
  | none =>
    let check := Check.ofJson source
    match (Check.targets check).find? fun target => (source.at? target).isNone with
    | some target => .error (danglingMessage target)
    | none => .ok ⟨source, check⟩

/-- How many references may be followed one from the other. -/
def hopLimit : Nat := 1000

/-- The violations at the target of a reference, from which some more references may be
followed. -/
def follow (v : StructureValidator) : Nat → Follow
  | 0, _, _, _, _ => []
  | hops + 1, target, place, schemaPlace, x =>
    match v.source.at? target with
    | some part => (Check.ofJson part).violations (v.follow hops) place schemaPlace x
    | none => []

/-- **All violations of a document.** -/
def validate (v : StructureValidator) (document : Json) : List Violation :=
  v.check.violations (v.follow hopLimit) "" "" document

end StructureValidator

/-- The lines of violations. -/
def violationsText (violations : List Violation) : String :=
  Text.joinWith "\n" (violations.map fun v => "  " ++ v.text)

end SchemaRules
