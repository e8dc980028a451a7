import SchemaRules.Config.Basic
import SchemaRules.Yaml.Typed

/-!
# Configuration in YAML

A mapping with the entries `scope_variable` and `rule_extensions`; what is left out is
standard, and other entries are passed over, whatever they hold.
-/

namespace SchemaRules.Config

open Yaml (Document)

/-- The settings read so far. -/
structure Draft where
  scopeVariable : Option String
  ruleExtensions : Option (List String)

/-- The settings with one more entry, each of which may be given once. -/
def Draft.add? (d : Document) (draft : Draft) (entry : Yaml.Tree Nat × Yaml.Tree Nat) :
    Option Draft := do
  let key ← (← d.node? 1 entry.1).text? false
  if key = "scope_variable" then
    if draft.scopeVariable.isSome then none
    return { draft with scopeVariable := some (← (← d.node? 1 entry.2).text? false) }
  else if key = "rule_extensions" then
    if draft.ruleExtensions.isSome then none
    return { draft with ruleExtensions := some (← (← d.node? 1 entry.2).texts? false) }
  else return draft

/-- The configuration of some settings. -/
def Draft.finish (draft : Draft) : Config :=
  { scopeVariable := draft.scopeVariable.getD standard.scopeVariable
    ruleExtensions := draft.ruleExtensions.getD standard.ruleExtensions }

/-- **The configuration that a YAML text writes**, whether it can be used or not. -/
def ofYaml? (text : String) : Option Config := do
  let d ← Document.ofText? text
  match d.root with
  | none => return standard
  | some (.map _ _ entries) =>
    return (← entries.foldlM (Draft.add? d) ⟨none, none⟩).finish
  | some (.scalar _ _ .plain "") => return standard
  | _ => none

end SchemaRules.Config
