import SchemaRules.Json.Basic
import SchemaRules.Decimal.Layout

/-!
# JSON text

The compact form: no blanks, entries in their order, a short escape where JSON has
one, four lower-case hexadecimal digits for the other controls, and every other
character as it is.
-/

namespace SchemaRules.Json

/-- A digit of radix 16, lower case. -/
def hexDigit (n : Nat) : Char :=
  if n < 10 then Char.ofNat ('0'.toNat + n) else Char.ofNat ('a'.toNat + (n - 10))

/-- A character as it stands between the quotes. -/
def escape (c : Char) : List Char :=
  if c = '"' then ['\\', '"']
  else if c = '\\' then ['\\', '\\']
  else if c = '\x08' then ['\\', 'b']
  else if c = '\x0c' then ['\\', 'f']
  else if c = '\n' then ['\\', 'n']
  else if c = '\r' then ['\\', 'r']
  else if c = '\t' then ['\\', 't']
  else if c.toNat < 0x20 then
    ['\\', 'u', '0', '0', hexDigit (c.toNat / 16), hexDigit (c.toNat % 16)]
  else [c]

/-- A text between quotes. -/
def renderText (s : String) : List Char :=
  '"' :: s.toList.flatMap escape ++ ['"']

mutual
/-- The characters of the compact form. -/
def renderChars : Json → List Char
  | null => "null".toList
  | bool true => "true".toList
  | bool false => "false".toList
  | int n => (toString n).toList
  | double x => (Decimal.Layout.document.write x).toList
  | str s => renderText s
  | arr items => '[' :: renderItems items ++ [']']
  | obj fields => '\x7b' :: renderFields fields ++ ['\x7d']
/-- The items with commas between them. -/
def renderItems : List Json → List Char
  | [] => []
  | [v] => v.renderChars
  | v :: w :: rest => v.renderChars ++ ',' :: renderItems (w :: rest)
/-- The entries with commas between them. -/
def renderFields : List (String × Json) → List Char
  | [] => []
  | [(k, v)] => renderText k ++ ':' :: v.renderChars
  | (k, v) :: w :: rest => renderText k ++ ':' :: v.renderChars ++ ',' :: renderFields (w :: rest)
end

/-- **The compact text of a value.** -/
def render (v : Json) : String :=
  String.ofList v.renderChars

end SchemaRules.Json
