import SchemaRules.Json.Printer
import SchemaRules.Text.Blank

/-!
# Rules

A rule is an expression that has to be true of a value, and the message for when it is not.
-/

namespace SchemaRules

/-- **A rule**: the text of an expression and a message. -/
structure Rule where
  expression : String
  message : String
  deriving DecidableEq, Inhabited

namespace Rule

/-- A rule says something when its expression is not blank. -/
def isSpecified (r : Rule) : Bool :=
  !Text.isBlankText r.expression

/-- What is reported when the rule fails: its message, or else its expression. -/
def failureMessage (r : Rule) : String :=
  if r.message.isEmpty then s!"failed rule: {r.expression}" else r.message

/-- The entries of the JSON form, the expression in front. -/
def toEntries (r : Rule) : List (String × Json) :=
  [("rule", .str r.expression), ("message", .str r.message)]

/-- The rule as a value of a document. -/
def toJson (r : Rule) : Json :=
  Json.ofEntries r.toEntries

/-- **The compact JSON text of a rule**, the expression in front of the message. -/
def render (r : Rule) : String :=
  Json.render (.obj r.toEntries)

end Rule

end SchemaRules
