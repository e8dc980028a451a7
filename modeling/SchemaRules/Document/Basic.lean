import SchemaRules.Json.Reader
import SchemaRules.Yaml.Value

/-!
# Documents

A document is JSON or YAML, and a JSON value in either case. The extension of a file name
tells which.

* `Format.read` reads a text.
* `extensionOf` is what follows the last point of a file name that does not begin with it.
-/

namespace SchemaRules

/-- **How a document is written.** -/
inductive Format where
  | json
  | yaml
  deriving DecidableEq

/-- The format that an extension stands for; YAML unless it is `json`. -/
def Format.ofExtension (extension : String) : Format :=
  if extension = "json" then .json else .yaml

/-- Why a text is no document. -/
inductive ParseError where
  | json (f : Json.Failure)
  | yaml
  | noJson (e : Yaml.NoJson)
  deriving DecidableEq

/-- The wording of an unreadable text. -/
def ParseError.message : ParseError → String
  | json f => s!"invalid JSON: {f.message}"
  | yaml => "invalid YAML: the text is not one well-formed document"
  | noJson e => e.message

/-- **The value that a text writes.** -/
def Format.read : Format → String → Except ParseError Json
  | json, text => (Json.ofText text).mapError .json
  | yaml, text => do
    match (Yaml.Document.ofText? text).bind Yaml.Document.value? with
    | some v => (v.toJson "$").mapError .noJson
    | none => throw .yaml

/-- The parts of a path between its slashes, without empty ones and those that stay in place. -/
def pathParts (path : String) : List String :=
  (Text.pieces '/' path).filter fun part => part != "" && part != "."

/-- **The extension of a file name**, the last part of a path. -/
def extensionOf (path : String) : String :=
  match (pathParts path).getLast? with
  | none => ""
  | some name =>
    if name = ".." then ""
    else
      match (Text.pieces '.' name).reverse with
      | extension :: base :: more => if base = "" ∧ more = [] then "" else extension
      | _ => ""

end SchemaRules
