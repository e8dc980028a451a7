import SchemaRules.Json.Reader

/-!
# Passing over JSON

A value that nobody asks for is passed over: its brackets, words, quotes and digits are
checked, but not the size of a number, the code points of an escape or the depth.
-/

namespace SchemaRules.Json.Reader

/-- Passes over an escape, behind its backslash. -/
def skimEscape : Reader Unit := do
  match ← peek? with
  | none => failHere .endInText
  | some c =>
    if c = 'u' then
      skip
      discard codeUnit
    else if (shortEscape? c).isSome then skip
    else failAhead .badEscape

/-- Passes over the characters up to the closing quote, at most `fuel` of them. -/
def skimQuoted : Nat → Reader Unit
  | 0 => failHere .endInText
  | fuel + 1 => do
    match ← peek? with
    | none => failHere .endInText
    | some c =>
      if c = '"' then skip
      else if c = '\\' then
        skip
        skimEscape
        skimQuoted fuel
      else if c.toNat < 0x20 then failHere .controlInText
      else
        skip
        skimQuoted fuel

/-- Passes over a text, behind its opening quote. -/
def skimText : Reader Unit := do
  skimQuoted ((← get).rest.length + 1)

/-- Passes over an exponent, behind its letter. -/
def skimExponent : Reader Unit := do
  let sign ← peek?
  if sign = some '+' || sign = some '-' then skip
  if ((← peek?).map Decimal.isDigit).getD false then discard digits
  else failAhead .badNumber

/-- Passes over an exponent, if one comes next. -/
def skimPerhapsExponent : Reader Unit := do
  let mark ← peek?
  if mark = some 'e' || mark = some 'E' then
    skip
    skimExponent

/-- Passes over a number, behind its sign. -/
def skimNumber : Reader Unit := do
  match ← peek? with
  | none => failHere .badNumber
  | some c =>
    if !Decimal.isDigit c then failAhead .badNumber
    if c = '0' then
      skip
      if ((← peek?).map Decimal.isDigit).getD false then failAhead .badNumber
    else discard digits
    if (← peek?) = some '.' then
      skip
      if (← digits).isEmpty then failAhead .badNumber
    skimPerhapsExponent

/-- Passes over a value that is no container and begins with `c`; false for brackets. -/
def skimScalar (c : Char) : Reader Bool :=
  match c with
  | 'n' => skip *> word ['u', 'l', 'l'] *> pure true
  | 't' => skip *> word ['r', 'u', 'e'] *> pure true
  | 'f' => skip *> word ['a', 'l', 's', 'e'] *> pure true
  | '-' => skip *> skimNumber *> pure true
  | '"' => skip *> skimText *> pure true
  | '[' => pure false
  | '\x7b' => pure false
  | c => if Decimal.isDigit c then skimNumber *> pure true else failAhead .valueExpected

/-- Passes over a key and its colon. -/
def skimKey : Reader Unit := do
  match ← peekInk? with
  | none => failHere .endInObject
  | some c => if c = '"' then skip else failAhead .keyNotText
  skimText
  colon

/-- How a container opens and closes. -/
inductive Bracket where
  | square
  | curly
  deriving DecidableEq

/-- The mark that closes a container. -/
def Bracket.closing : Bracket → Char
  | square => ']'
  | curly => '\x7d'

/-- Passes over the members up to the closing bracket, at most `fuel` of them. -/
def skimMembers (member : Reader Unit) (b : Bracket) : Nat → Bool → Reader Unit
  | 0, _ => failHere .endInList
  | fuel + 1, first => do
    match ← peekInk? with
    | none => failHere (if b = .square then .endInList else .endInObject)
    | some c =>
      if c = b.closing then skip
      else
        if !first then
          if c = ',' then skip
          else failAhead (if b = .square then .commaOrBracketExpected else .commaOrBraceExpected)
        if b = .curly then skimKey
        member
        skimMembers member b fuel false

/-- Passes over a value; `fuel` bounds its depth. -/
def skimDeep : Nat → Reader Unit
  | 0 => failHere .endInValue
  | fuel + 1 => do
    match ← peekInk? with
    | none => failHere .endInValue
    | some c =>
      if ← skimScalar c then pure ()
      else
        skip
        let members := (← get).rest.length + 1
        skimMembers (skimDeep fuel) (if c = '[' then .square else .curly) members true

/-- **Passes over a value.** -/
def skim : Reader Unit := do
  skimDeep ((← get).rest.length + 1)

end SchemaRules.Json.Reader
