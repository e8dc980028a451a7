import SchemaRules.Declaration.OfSchema
import SchemaRules.Environment
import SchemaRules.Rule.Basic
import SchemaRules.Schema.Rules

/-!
# Compiled rules

A rule that has been read and checked, and why a rule or a whole list of rules has not
been compiled. Of a list of rules there is one slot for each.
-/

namespace SchemaRules

/-- **A compiled rule.** -/
structure CompiledRule where
  rule : Rule
  expr : Expr
  env : Environment

/-- Why a single rule is rejected. -/
inductive Rejection where
  | unreadable
  | diagnosed (diagnostic : String)
  deriving DecidableEq

/-- The wording of a rejection. -/
def Rejection.message : Rejection → String
  | unreadable => "the expression cannot be parsed"
  | diagnosed diagnostic => diagnostic

/-- **Why rules are not compiled.** Single rules are known by their place in the list. -/
inductive CompileError where
  | declaration (e : DeclarationError)
  | environment (e : EnvironmentError)
  | rules (e : RulesError)
  | notSpecified (index : Nat) (message : String)
  | rejected (index : Nat) (rule : Rule) (reason : Rejection)
  deriving DecidableEq

namespace CompileError

/-- The wording of a compile error. -/
def message : CompileError → String
  | declaration e => e.message
  | environment e => e.message
  | rules e => e.message
  | notSpecified index _ => s!"rule {index}: rule is not specified"
  | rejected _ rule reason =>
    s!"compilation failed for rule: {rule.message} with message: {reason.message}"

/-- The place of the rule, for an error of a single rule. -/
def index? : CompileError → Option Nat
  | notSpecified index _ => some index
  | rejected index _ _ => some index
  | _ => none

end CompileError

/-- **What has become of a list of rules.** -/
structure Compilation where
  slots : List (Option CompiledRule)
  errors : List CompileError

namespace Compilation

/-- No rule of `n` is compiled. -/
def failed (n : Nat) (e : CompileError) : Compilation :=
  ⟨List.replicate n none, [e]⟩

/-- Whether there is no error. -/
def isOk (c : Compilation) : Bool := c.errors.isEmpty

/-- The number of compiled rules. -/
def compiled (c : Compilation) : Nat :=
  (c.slots.filter Option.isSome).length

end Compilation

end SchemaRules
