import SchemaRules.Text.Printable

/-!
# Quoted text

The form in which messages show a text: between double quotes, with a backslash
before a quote or a backslash, a short escape for NUL, tab, line feed and carriage
return, and the code point in braces for every other character that is not
printable.
-/

namespace SchemaRules.Text

/-- The hexadecimal digits of a number, lower case and without leading zeros. -/
def hex (n : Nat) : List Char :=
  Nat.toDigits 16 n

/-- A character as it stands between the quotes. -/
def quotedChar (c : Char) : List Char :=
  if c = '\x00' then ['\\', '0']
  else if c = '\t' then ['\\', 't']
  else if c = '\n' then ['\\', 'n']
  else if c = '\r' then ['\\', 'r']
  else if c = '"' || c = '\\' then ['\\', c]
  else if isPrintable c then [c]
  else ['\\', 'u', '\x7b'] ++ hex c.toNat ++ ['\x7d']

/-- **A text between double quotes.** -/
def quoted (s : String) : String :=
  String.ofList ('"' :: s.toList.flatMap quotedChar ++ ['"'])

end SchemaRules.Text
