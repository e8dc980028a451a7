import SchemaRules.Identifier
import SchemaRules.Text.Blank
import SchemaRules.Text.Search

/-!
# Configuration

The name of the value in scope and the extension keys that carry rules.

* `Config.checked` accepts a configuration whose scope variable is an identifier and
  that names one key at least.
* `Config.ofVariables` takes both settings from environment variables, the keys with
  commas between them.
-/

namespace SchemaRules

/-- **What rules are called by and where they stand.** -/
structure Config where
  scopeVariable : String
  ruleExtensions : List String
  deriving DecidableEq, Inhabited

/-- Why there is no configuration. -/
inductive ConfigError where
  | invalidScopeVariable (name : String)
  | noRuleExtensions
  | unreadable (path reason : String)
  | malformed (path reason : String)
  deriving DecidableEq

/-- The wording of a configuration error. -/
def ConfigError.message : ConfigError → String
  | invalidScopeVariable name =>
    s!"invalid scope variable '{name}': must be a non-reserved identifier"
  | noRuleExtensions => "at least one rule extension key is required"
  | unreadable path reason => s!"cannot read config file '{path}': {reason}"
  | malformed path reason => s!"invalid config file '{path}': {reason}"

namespace Config

/-- The configuration where nothing else is said. -/
def standard : Config :=
  ⟨"self", ["x-kubernetes-validations", "x-kubernetes-validator"]⟩

/-- **The configuration, if it can be used.** -/
def checked (c : Config) : Except ConfigError Config :=
  if !isIdentifier c.scopeVariable then .error (.invalidScopeVariable c.scopeVariable)
  else if c.ruleExtensions.isEmpty then .error .noRuleExtensions
  else .ok c

/-- The keys between the commas of a text, without blanks around them and none empty. -/
def keysOf (s : String) : List String :=
  ((Text.cut [','] s.toList).map fun key => String.ofList (Text.trimChars key)).filter
    (!·.isEmpty)

/-- **The configuration that environment variables give**; a variable that is not set leaves the
standard. -/
def ofVariables (lookup : String → Option String) : Except ConfigError Config :=
  checked
    { scopeVariable := ((lookup "XVAL_SCOPE_VARIABLE").map Text.trim).getD standard.scopeVariable
      ruleExtensions := ((lookup "XVAL_RULE_EXTENSIONS").map keysOf).getD standard.ruleExtensions }

end Config

end SchemaRules
