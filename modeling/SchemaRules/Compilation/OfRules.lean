import SchemaRules.Compilation.Trial
import SchemaRules.Config.Basic
import SchemaRules.Expr.Parser

/-!
# Compiling rules

* `Compilation.ofRules` compiles each rule of a list on its own; slots and errors keep the
  order of the list.
* `Compilation.ofSchema` compiles the rules that a schema node carries.
-/

namespace SchemaRules

/-- **One rule**, compiled or at fault. -/
def compileRule (env : Environment) (rule : Rule) (index : Nat) (s : Seed) :
    Except CompileError CompiledRule :=
  if !rule.isSpecified then .error (.notSpecified index rule.message)
  else
    match Expr.ofText? rule.expression with
    | none => .error (.rejected index rule .unreadable)
    | some e =>
      match env.verdict e s with
      | .ok () => .ok ⟨rule, e, env⟩
      | .error diagnostic => .error (.rejected index rule (.diagnosed diagnostic))

namespace Compilation

/-- A compilation of one rule more in front. -/
def add (result : Except CompileError CompiledRule) (c : Compilation) : Compilation :=
  match result with
  | .ok rule => ⟨some rule :: c.slots, c.errors⟩
  | .error e => ⟨none :: c.slots, e :: c.errors⟩

/-- The rules from a place on. -/
def compileFrom (env : Environment) : Nat → List Rule → Seed → Compilation
  | _, [], _ => ⟨[], []⟩
  | index, rule :: rest, s =>
    add (compileRule env rule index s.here) (compileFrom env (index + 1) rest s.next)

/-- **The rules of a declaration.** -/
def ofRules (d : Declaration) (rules : List Rule) (scopeVariable : String)
    (s : Seed := .standard) : Compilation :=
  match Environment.build d scopeVariable with
  | .ok env => compileFrom env 0 rules s
  | .error e => failed rules.length (.environment e)

/-- **The rules of a schema node** under the keys of a configuration. -/
def ofSchema (schema : Schema) (config : Config) (s : Seed := .standard) : Compilation :=
  match schema.rules config.ruleExtensions with
  | .error e => failed 0 (.rules e)
  | .ok rules =>
    match schema.declare config.scopeVariable with
    | .ok d => ofRules d rules config.scopeVariable s
    | .error e => failed rules.length (.declaration e)

end Compilation

end SchemaRules
