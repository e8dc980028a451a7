import SchemaRules.Config.OfYaml
import SchemaRules.Files

/-!
# Loading a configuration

The configuration comes from a file in YAML, of which JSON is a part, or from variables.
-/

namespace SchemaRules

/-- The cause of a configuration that is no YAML. -/
def malformedConfig : String := "the text is not one well-formed document of settings"

/-- **The configuration in a file**, if it can be used. -/
def Files.loadConfig (files : Files) (path : String) : Except ConfigError Config :=
  match files path with
  | .error fault => .error (.unreadable path fault.message)
  | .ok text =>
    match Config.ofYaml? text with
    | some c => c.checked
    | none => .error (.malformed path malformedConfig)

end SchemaRules
