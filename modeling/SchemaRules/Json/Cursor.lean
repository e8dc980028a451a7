import SchemaRules.Decimal.Reader
import SchemaRules.Json.Mismatch

/-!
# Reading JSON text step by step

A `Cursor` is the text still to be read and the place reached, counted in lines and in
bytes of UTF-8. A `Reader` consumes text from a cursor or fails.

* `Failure` is a fault and the place of it; most faults are placed behind the
  byte that shows them, so `Cursor.ahead` is one byte further than `Cursor.here`.
-/

namespace SchemaRules.Json

/-- A place in a text: lines from one, and in a line bytes from zero. -/
structure Position where
  line : Nat
  column : Nat
  deriving DecidableEq

namespace Position

/-- The first place. -/
def start : Position := ⟨1, 0⟩

/-- The place behind a character. -/
def past (p : Position) (c : Char) : Position :=
  if c = '\n' then ⟨p.line + 1, 0⟩ else ⟨p.line, p.column + c.utf8Size⟩

/-- The place behind the first byte of a character. -/
def pastByte (p : Position) (c : Char) : Position :=
  if c = '\n' then ⟨p.line + 1, 0⟩ else ⟨p.line, p.column + 1⟩

/-- The place behind the first `n` bytes of a text. -/
def pastBytes (p : Position) (n : Nat) : List Char → Position
  | [] => p
  | c :: cs =>
    if n = 0 then p
    else if c.utf8Size ≤ n then (p.past c).pastBytes (n - c.utf8Size) cs
    else ⟨p.line, p.column + n⟩

end Position

/-- **What can be wrong with JSON text.** -/
inductive Fault where
  | endInValue
  | endInList
  | endInObject
  | endInText
  | colonExpected
  | commaOrBracketExpected
  | commaOrBraceExpected
  | wordExpected
  | valueExpected
  | badEscape
  | badNumber
  | numberTooLarge
  | controlInText
  | keyNotText
  | loneSurrogate
  | brokenSurrogatePair
  | commaAtEnd
  | trailingText
  | tooDeep
  /-- A value that is not what the document should hold. -/
  | mismatch (m : Mismatch)
  deriving DecidableEq

/-- The wording of a fault. -/
def Fault.message : Fault → String
  | endInValue => "EOF while parsing a value"
  | endInList => "EOF while parsing a list"
  | endInObject => "EOF while parsing an object"
  | endInText => "EOF while parsing a string"
  | colonExpected => "expected `:`"
  | commaOrBracketExpected => "expected `,` or `]`"
  | commaOrBraceExpected => "expected `,` or `\x7d`"
  | wordExpected => "expected ident"
  | valueExpected => "expected value"
  | badEscape => "invalid escape"
  | badNumber => "invalid number"
  | numberTooLarge => "number out of range"
  | controlInText => "control character (\\u0000-\\u001F) found while parsing a string"
  | keyNotText => "key must be a string"
  | loneSurrogate => "lone leading surrogate in hex escape"
  | brokenSurrogatePair => "unexpected end of hex escape"
  | commaAtEnd => "trailing comma"
  | trailingText => "trailing characters"
  | tooDeep => "recursion limit exceeded"
  | mismatch m => m.message

/-- **A fault and the place of it.** -/
structure Failure where
  fault : Fault
  position : Position
  deriving DecidableEq

/-- The wording of a failure. -/
def Failure.message (f : Failure) : String :=
  s!"{f.fault.message} at line {f.position.line} column {f.position.column}"

/-- **The text still to be read** and the place where it begins. -/
structure Cursor where
  rest : List Char
  here : Position

namespace Cursor

/-- The cursor in front of a text. -/
def ofChars (cs : List Char) : Cursor := ⟨cs, .start⟩

/-- The place behind the next byte. -/
def ahead (c : Cursor) : Position :=
  match c.rest with
  | [] => c.here
  | x :: _ => c.here.pastByte x

/-- The cursor behind the next character. -/
def step (c : Cursor) : Cursor :=
  match c.rest with
  | [] => c
  | x :: rest => ⟨rest, c.here.past x⟩

end Cursor

/-- The blanks of JSON. -/
def isSpace (c : Char) : Bool :=
  c = ' ' || c = '\n' || c = '\t' || c = '\r'

/-- **A step of reading** takes text off a cursor or fails. -/
abbrev Reader (α : Type) := StateT Cursor (Except Failure) α

namespace Reader

variable {α : Type}

/-- Fails at the place reached. -/
def failHere (fault : Fault) : Reader α := do
  throw ⟨fault, (← get).here⟩

/-- Fails behind the next byte. -/
def failAhead (fault : Fault) : Reader α := do
  throw ⟨fault, (← get).ahead⟩

/-- The next character, which stays. -/
def peek? : Reader (Option Char) := do
  return (← get).rest.head?

/-- Passes over the next character. -/
def skip : Reader Unit :=
  modify Cursor.step

/-- Passes over blanks. -/
def skipSpaces : Reader Unit :=
  modify fun c =>
    ⟨c.rest.dropWhile isSpace, (c.rest.takeWhile isSpace).foldl Position.past c.here⟩

/-- The next character that is no blank, which stays. -/
def peekInk? : Reader (Option Char) := do
  skipSpaces
  peek?

/-- Takes the digits that come next. -/
def digits : Reader (List Char) := do
  let c ← get
  let (run, rest) := Decimal.takeDigits c.rest
  set (Cursor.mk rest ⟨c.here.line, c.here.column + run.length⟩)
  return run

/-- Passes over the letters of a word. -/
def word : List Char → Reader Unit
  | [] => pure ()
  | x :: rest => do
    match ← peek? with
    | none => failHere .endInValue
    | some c =>
      if c = x then
        skip
        word rest
      else failAhead .wordExpected

/-- Passes over a colon behind a key. -/
def colon : Reader Unit := do
  match ← peekInk? with
  | some ':' => skip
  | some _ => failAhead .colonExpected
  | none => failHere .endInObject

end Reader

end SchemaRules.Json
