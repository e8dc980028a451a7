import SchemaRules.Compilation.Basic

/-!
# Evaluating rules

A compiled rule holds of an instance, fails, or cannot be evaluated.

* `CompiledRule.evaluate` reports a rule that does not hold.
* `evaluateAll` goes through the slots of a list of rules; empty slots are passed over.
-/

namespace SchemaRules

/-- **A rule that does not hold** at a place of a document. -/
inductive ValidationError where
  | failed (path rule message : String)
  | fault (path rule cause : String)
  deriving DecidableEq

namespace ValidationError

/-- The place. -/
def path : ValidationError → String
  | failed path _ _ => path
  | fault path _ _ => path

/-- The text of the rule. -/
def rule : ValidationError → String
  | failed _ rule _ => rule
  | fault _ rule _ => rule

/-- Whether the rule could not be evaluated. -/
def isFault : ValidationError → Bool
  | failed _ _ _ => false
  | fault _ _ _ => true

end ValidationError

/-- A place in words; the place of the whole document has no path. -/
def locationName (path : String) : String :=
  if path.isEmpty then "<root>" else path

/-- The wording of a rule that does not hold. -/
def ValidationError.message : ValidationError → String
  | failed path _ message => s!"{locationName path}: {message}"
  | fault path rule cause => s!"{locationName path}: error evaluating rule '{rule}': {cause}"

/-- **What a rule has to say about an instance**; nothing when it is true of it. -/
def CompiledRule.evaluate (r : CompiledRule) (path : String) (value : Json) (s : Seed) :
    Option ValidationError :=
  match r.env.execute r.expr value s with
  | .ok (.bool true) => none
  | .ok _ => some (.failed path r.rule.expression r.rule.failureMessage)
  | .error f => some (.fault path r.rule.expression f.message)

/-- **What the compiled rules of a list have to say about an instance**, in their order. -/
def evaluateAll (slots : List (Option CompiledRule)) (path : String) (value : Json)
    (s : Seed := .standard) : List ValidationError :=
  (s.spread slots).filterMap fun slot => slot.2.bind fun r => r.evaluate path value slot.1

end SchemaRules
