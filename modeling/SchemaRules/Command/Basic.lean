import SchemaRules.Config.Load
import SchemaRules.Document.Load
import SchemaRules.RuleTree
import SchemaRules.Structure.Validator

/-!
# Commands

* `check` compiles the rules of a schema and reports what is wrong with them.
* `validate` also goes through documents, the structure first and the rules only where the
  structure is right.

A command reports lines and a code: 0 when all is well and 1 when something is found. What keeps it
from its work is an `OperationError`, and then nothing is reported.
-/

namespace SchemaRules

/-- **A command.** -/
inductive Command where
  | check (schema : String)
  | validate (schema : String) (documents : List String)
  deriving DecidableEq, Inhabited

/-- **What keeps a command from its work.** -/
inductive OperationError where
  | configFile (path : String) (e : ConfigError)
  | configVariables (e : ConfigError)
  | loadSchema (path : String) (e : LoadError)
  | compileSchema (path reason : String)
  deriving DecidableEq

/-- The wording of an operation error, the causes behind it. -/
def OperationError.message : OperationError → String
  | configFile path e => s!"failed to load config from {path}: {e.message}"
  | configVariables e => s!"invalid rule configuration in environment: {e.message}"
  | loadSchema path e => Text.joinWith ": " (s!"failed to load schema {path}" :: e.chain)
  | compileSchema path reason => s!"failed to compile schema {path}: {reason}"

/-- **What a command reports.** -/
structure Report where
  code : Nat
  lines : List String
  deriving DecidableEq

/-- The code of a report in which something is found or not. -/
def codeOf (found : Bool) : Nat :=
  if found then 1 else 0

/-- **The configuration**: that of a file, if one is given, or that of the variables. -/
def chooseConfig (files : Files) (lookup : String → Option String) :
    Option String → Except OperationError Config
  | some path => (files.loadConfig path).mapError (.configFile path)
  | none => (Config.ofVariables lookup).mapError .configVariables

/-- The line of a compile error. -/
def NodeError.line (e : NodeError) : String :=
  s!"  ERROR: {e.message}"

/-- **What is found in a document.** -/
inductive Verdict where
  | pass
  | unloadable (e : LoadError)
  | malformed (violations : List Violation)
  | broken (errors : List ValidationError)
  deriving DecidableEq

namespace Verdict

/-- Whether nothing is found. -/
def isPass : Verdict → Bool
  | pass => true
  | _ => false

/-- The lines about a document. -/
def lines (path : String) : Verdict → List String
  | pass => [s!"PASS: {path}"]
  | unloadable e => [s!"FAIL: {path}: {e.message}"]
  | malformed violations =>
    [s!"FAIL: {path} ({violations.length} structural violation(s))", violationsText violations]
  | broken errors => [s!"FAIL: {path} ({errors.length} rule violation(s))", reportText errors]

/-- **The verdict on a document.** -/
def ofDocument (form : StructureValidator) (rules : Validator) (document : Json) (s : Seed) :
    Verdict :=
  let violations := form.validate document
  if !violations.isEmpty then malformed violations
  else
    let errors := rules.validate document s
    if errors.isEmpty then pass else broken errors

/-- The verdict on a file. -/
def ofFile (files : Files) (form : StructureValidator) (rules : Validator) (path : String)
    (s : Seed) : Verdict :=
  match files.loadDocument path with
  | .ok document => ofDocument form rules document s
  | .error e => unloadable e

end Verdict

namespace Command

/-- **The report on the rules of a schema.** -/
def runCheck (files : Files) (config : Config) (path : String) (s : Seed) :
    Except OperationError Report := do
  let (schema, _) ← (files.loadSchema path).mapError (.loadSchema path)
  let rules := Validator.ofSchema schema config s.here
  let n := rules.errors.length
  return ⟨codeOf (n != 0),
    s!"{path}: {rules.ruleCount} rule(s) compiled, {n} error(s)" :: rules.errors.map NodeError.line⟩

/-- **The report on documents.** -/
def runValidate (files : Files) (config : Config) (path : String) (documents : List String)
    (s : Seed) : Except OperationError Report := do
  let (schema, raw) ← (files.loadSchema path).mapError (.loadSchema path)
  let form ← (StructureValidator.build raw).mapError (.compileSchema path)
  let rules := Validator.ofSchema schema config s.here
  let verdicts := (s.next.spread documents).map fun document =>
    (document.2, Verdict.ofFile files form rules document.2 document.1)
  let passed := (verdicts.filter (·.2.isPass)).length
  return ⟨codeOf (!rules.errors.isEmpty || verdicts.any (!·.2.isPass)),
    rules.errors.map NodeError.line ++ (verdicts.flatMap fun v => v.2.lines v.1) ++
      [s!"Documents: {passed}/{documents.length} passed"]⟩

/-- **The report of a command.** -/
def run (files : Files) (config : Config) (command : Command) (s : Seed) :
    Except OperationError Report :=
  match command with
  | check path => runCheck files config path s
  | validate path documents => runValidate files config path documents s

end Command

end SchemaRules
