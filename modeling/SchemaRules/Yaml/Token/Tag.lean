import SchemaRules.Decimal.Reader
import SchemaRules.Text.Bytes
import SchemaRules.Yaml.Cursor
import SchemaRules.Yaml.Token.Basic

/-!
# Tags, anchors and directives

The tokens that begin with a mark and go on with a name. A tag is written out between
angle brackets, or it is a handle between exclamation marks and a suffix, or a suffix alone.
-/

namespace SchemaRules.Yaml

/-- A name, which ends before white or a mark. -/
def takeName (c : Cursor) : Option (String × Cursor) :=
  let name := c.rest.takeWhile isNameChar
  let c := c.skip name.length
  let ends := match c.head? with
    | none => true
    | some x => isWhite x || "?:,]\x7d%@\x60".toList.contains x
  if !name.isEmpty && ends then some (String.ofList name, c) else none

namespace Tag

/-- A character of a tag; between angle brackets commas and square brackets are too. -/
def isPart (bracketed : Bool) (c : Char) : Bool :=
  isNameChar c || ";/?:@&=+$.%!~*'()".toList.contains c || (bracketed && ",[]".toList.contains c)

/-- The byte that two digits behind a percent sign write. -/
def takeByte? : List Char → Option (Nat × List Char)
  | '%' :: a :: b :: rest => do return (← Decimal.readDigits? 16 0 [a, b], rest)
  | _ => none

/-- The number of bytes that follow the first one of a character. -/
def following? (b : Nat) : Option Nat :=
  if b < 0x80 then some 0
  else if 0xC0 ≤ b ∧ b < 0xE0 then some 1
  else if 0xE0 ≤ b ∧ b < 0xF0 then some 2
  else if 0xF0 ≤ b ∧ b < 0xF8 then some 3
  else none

/-- Bytes that go on with a character. -/
def takeBytes? : Nat → List Char → Option (List Nat × List Char)
  | 0, cs => some ([], cs)
  | n + 1, cs => do
    let (b, cs) ← takeByte? cs
    if b / 64 != 2 then none
    let (more, cs) ← takeBytes? n cs
    return (b :: more, cs)

/-- A character by its bytes. -/
def takeEscape? (cs : List Char) : Option (List Char × List Char) := do
  let (b, cs) ← takeByte? cs
  let (more, cs) ← takeBytes? (← following? b) cs
  return (Text.charsOfBytes ((b :: more).map UInt8.ofNat), cs)

/-- The characters of a tag and what follows them. -/
def takeParts (bracketed : Bool) : Nat → List Char → Option (List Char × List Char)
  | 0, cs => some ([], cs)
  | _ + 1, [] => some ([], [])
  | fuel + 1, c :: rest =>
    if !isPart bracketed c then some ([], c :: rest)
    else do
      let (piece, rest) ← if c = '%' then takeEscape? (c :: rest) else some ([c], rest)
      let (more, rest) ← takeParts bracketed fuel rest
      return (piece ++ more, rest)

/-- One character of a tag at least. -/
def takeSome (bracketed : Bool) (c : Cursor) : Option (List Char × Cursor) := do
  let (parts, rest) ← takeParts bracketed (c.rest.length + 1) c.rest
  if parts.isEmpty then none else return (parts, c.upTo rest)

/-- An exclamation mark, a name, and another mark if it is there. -/
def takeHandle (c : Cursor) : Option (List Char × Cursor) :=
  if !c.begins '!' then none
  else
    let c := c.step
    let name := c.rest.takeWhile isNameChar
    let c := c.skip name.length
    some (if c.begins '!' then ('!' :: name ++ ['!'], c.step) else ('!' :: name, c))

/-- Whether a handle is closed by a mark of its own. -/
def isClosed (handle : List Char) : Bool :=
  handle.length > 1 && handle.getLast? == some '!'

/-- A tag without the check of what follows. -/
def takeOpen (c : Cursor) : Option (Token × Cursor) := do
  if c.second? = some '<' then
    let (parts, c) ← takeSome true (c.skip 2)
    if c.begins '>' then return (.tag "" (String.ofList parts), c.step) else none
  else
    let (handle, behind) ← takeHandle c
    if isClosed handle then
      let (parts, c) ← takeSome false behind
      return (.tag (String.ofList handle) (String.ofList parts), c)
    else
      let (parts, rest) ← takeParts false (behind.rest.length + 1) behind.rest
      let suffix := handle.drop 1 ++ parts
      let token := if suffix.isEmpty then Token.tag "" "!" else .tag "!" (String.ofList suffix)
      return (token, behind.upTo rest)

/-- **The tag that begins here**; white follows it, or a comma in a flow collection. -/
def take (flow : Bool) (c : Cursor) : Option (Token × Cursor) := do
  let (token, c) ← takeOpen c
  if endsWord c.head? || (flow && c.begins ',') then return (token, c) else none

end Tag

namespace Directive

/-- A number of nine digits at most. -/
def takeNumber (c : Cursor) : Option (Nat × Cursor) :=
  let digits := c.rest.takeWhile Decimal.isDigit
  if digits.isEmpty ∨ 9 < digits.length then none
  else some (Decimal.digitsValue digits, c.skip digits.length)

/-- The version that a document is written in. -/
def takeVersion (c : Cursor) : Option (Token × Cursor) := do
  let (major, c) ← takeNumber (c.skipWhile isBlank)
  if !c.begins '.' then none
  let (minor, c) ← takeNumber c.step
  return (.version major minor, c)

/-- A handle and what it stands for. -/
def takeTagHandle (c : Cursor) : Option (Token × Cursor) := do
  let (handle, c) ← Tag.takeHandle (c.skipWhile isBlank)
  if !(Tag.isClosed handle || handle == ['!']) || !c.head?.any isBlank then none
  let (expansion, c) ← Tag.takeSome true (c.skipWhile isBlank)
  if !endsWord c.head? then none
  return (.handle (String.ofList handle) (String.ofList expansion), c)

/-- **The directive that begins here** with its mark, and the cursor behind its line. -/
def take (c : Cursor) : Option (Token × Cursor) := do
  let c := c.step
  let name := c.rest.takeWhile isNameChar
  let c := c.skip name.length
  if !endsWord c.head? then none
  let (token, c) ←
    if name = "YAML".toList then takeVersion c
    else if name = "TAG".toList then takeTagHandle c
    else none
  let c := c.skipWhile isBlank
  let c := if c.begins '#' then c.skipLine else c
  if c.rest.head?.all isBreak then return (token, c.takeBreak.2) else none

end Directive

end SchemaRules.Yaml
