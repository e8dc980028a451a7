import SchemaRules.Declaration.Convert
import SchemaRules.Expr.Eval
import SchemaRules.Identifier

/-!
# Environments

The variables of the rules of one schema node: the scope variable is the whole value, and
each field of an object is a variable too, unless its name is no identifier or that of the
scope variable.

* `Environment.declared?` is the declaration of a variable.
* `Environment.execute` evaluates an expression on an instance. A breakdown of the
  evaluation is a fault of the function `<engine>`.
-/

namespace SchemaRules

/-- **The variables of a node.** -/
structure Environment where
  scopeVariable : String
  root : Declaration
  shorthands : List (String × Declaration)

/-- A scope variable that is no identifier. -/
structure EnvironmentError where
  scopeVariable : String
  deriving DecidableEq

/-- The wording of a missing environment. -/
def EnvironmentError.message (e : EnvironmentError) : String :=
  s!"invalid scope variable '{e.scopeVariable}': must be a non-reserved identifier"

namespace Environment

/-- Whether a field is a variable of its own beside the scope variable. -/
def isShorthand (scopeVariable field : String) : Bool :=
  field != scopeVariable && isIdentifier field

/-- **The environment of a declaration.** -/
def build (root : Declaration) (scopeVariable : String) : Except EnvironmentError Environment :=
  if isIdentifier scopeVariable then
    .ok
      { scopeVariable, root
        shorthands := (root.fields?.getD []).filter fun f => isShorthand scopeVariable f.1 }
  else .error ⟨scopeVariable⟩

/-- **The declaration of a variable.** -/
def declared? (env : Environment) (name : String) : Option Declaration :=
  if name = env.scopeVariable then some env.root else Fields.get? name env.shorthands

/-- Whether two environments are the same. -/
def same (a b : Environment) : Bool :=
  a.scopeVariable == b.scopeVariable && a.root.same b.root &&
    Declaration.sameFields a.shorthands b.shorthands

/-- The fields of an instance that are variables. -/
def fieldsBound (env : Environment) (value : Json) (s : Seed) : Scope :=
  match value with
  | .obj fields =>
    env.shorthands.filterMap fun (name, d) =>
      (Fields.get? name fields).map fun v => (name, d.convert v (s.under name))
  | _ => []

/-- **The scope of an instance.** A field that is a variable is converted apart from the whole, so
their maps need not agree in the order of their entries. -/
def bindings (env : Environment) (value : Json) (s : Seed) : Scope :=
  (env.scopeVariable, env.root.convert value s) :: env.fieldsBound value s.apart

/-- The function that a breakdown is put down to. -/
def engine : String := "<engine>"

/-- An answer in which a breakdown is a fault of the engine. -/
def contained : Answer → Answer
  | .error (.breakdown message) => .error (.function engine message)
  | answer => answer

/-- **The value of an expression on an instance.** -/
def execute (env : Environment) (e : Expr) (value : Json) (s : Seed) : Answer :=
  contained (e.eval (env.bindings value s.here) s.next)

end Environment

end SchemaRules
