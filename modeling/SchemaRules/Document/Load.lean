import SchemaRules.Files
import SchemaRules.Schema.Reader

/-!
# Loading documents

A document comes from a file, a schema from a document.
-/

namespace SchemaRules

/-- **Why a file gives no document or no schema.** -/
inductive LoadError where
  | unreadable (path : String) (fault : FileFault)
  | malformed (path : String) (e : ParseError)
  | noSchema (path : String) (m : Mismatch)
  deriving DecidableEq

/-- The wording of a value that is no schema. -/
def Mismatch.schemaMessage (m : Mismatch) : String :=
  s!"invalid schema document: {m.message}"

namespace LoadError

/-- The wording of a document that is not loaded. -/
def message : LoadError → String
  | unreadable path fault => s!"cannot read '{path}': {fault.message}"
  | malformed path e => s!"cannot parse '{path}': {e.message}"
  | noSchema path m => s!"'{path}' is not a valid schema: {m.schemaMessage}"

/-- **The wording with its causes** behind it, each in its own words. -/
def chain : LoadError → List String
  | malformed path (.json f) =>
    [(malformed path (.json f)).message, (ParseError.json f).message, f.message]
  | malformed path .yaml =>
    [(malformed path .yaml).message, ParseError.yaml.message, "malformed text"]
  | malformed path e => [(malformed path e).message, e.message]
  | e => [e.message]

end LoadError

/-- **The document in a file.** -/
def Files.loadDocument (files : Files) (path : String) : Except LoadError Json := do
  let text ← (files path).mapError (.unreadable path)
  ((Format.ofExtension (extensionOf path)).read text).mapError (.malformed path)

/-- **The schema in a file**, and the document that it is read from. -/
def Files.loadSchema (files : Files) (path : String) : Except LoadError (Schema × Json) := do
  let raw ← files.loadDocument path
  let s ← (Schema.ofJson raw).mapError (.noSchema path)
  return (s, raw)

end SchemaRules
