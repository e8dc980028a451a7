/-!
# Identifiers

The names that a rule may use as variables: a letter or an underscore, then letters,
digits and underscores, all of them ASCII, and no reserved word.
-/

namespace SchemaRules

/-- The words that name no variable. -/
def reservedWords : List String :=
  ["as", "break", "const", "continue", "else", "false", "for", "function", "if", "import", "in",
    "let", "loop", "namespace", "null", "package", "return", "true", "var", "void", "while"]

/-- A letter or an underscore. -/
def isNameStart (c : Char) : Bool :=
  c.isAlpha || c = '_'

/-- A letter, a digit or an underscore. -/
def isNamePart (c : Char) : Bool :=
  c.isAlphanum || c = '_'

/-- Whether the characters spell a name, reserved or not. -/
def isNameText : List Char → Bool
  | [] => false
  | c :: cs => isNameStart c && cs.all isNamePart

/-- **An identifier** is a name that is not reserved. -/
def isIdentifier (name : String) : Bool :=
  isNameText name.toList && !reservedWords.contains name

end SchemaRules
