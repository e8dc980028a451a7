/-!
# Places in YAML text

The characters that YAML tells apart, and a `Cursor`: the text still to be read, and where
it begins, in lines, in columns and in characters from the beginning.

* A line ends with a carriage return, a line feed, both together, or one of three breaks of
  Unicode; `breaksOf` writes them in their normal form.
* `Cursor.skip` passes over characters.
-/

namespace SchemaRules.Yaml

/-- A break ends a line. -/
def isBreak (c : Char) : Bool :=
  c = '\n' || c = '\r' || c = '\x85' || c = '\u2028' || c = '\u2029'

/-- A space or a tab. -/
def isBlank (c : Char) : Bool :=
  c = ' ' || c = '\t'

/-- A blank or a break. -/
def isWhite (c : Char) : Bool :=
  isBlank c || isBreak c

/-- A character of a name. -/
def isNameChar (c : Char) : Bool :=
  c.isAlphanum || c = '_' || c = '-'

/-- The marks of flow collections. -/
def isFlowMark (c : Char) : Bool :=
  c = ',' || c = '[' || c = ']' || c = '\x7b' || c = '\x7d'

/-- A character that may occur in a document. -/
def isAllowed (c : Char) : Bool :=
  let n := c.toNat
  n == 0x9 || n == 0xA || n == 0xD || (0x20 ≤ n && n ≤ 0x7E) || n == 0x85 ||
    (0xA0 ≤ n && n ≤ 0xFFFD) || 0x10000 ≤ n

/-- **The breaks of a text in normal form**: a line feed, or a break of Unicode between lines or
paragraphs. -/
def breaksOf : List Char → List Char
  | [] => []
  | '\r' :: '\n' :: rest => '\n' :: breaksOf rest
  | c :: rest =>
    if c = '\u2028' ∨ c = '\u2029' then c :: breaksOf rest
    else if isBreak c then '\n' :: breaksOf rest
    else breaksOf rest

/-- What stands for white between two pieces of a line: the blanks themselves, or for a break a
space, or the breaks behind the first one. -/
def fold (white : List Char) : List Char :=
  match breaksOf white with
  | [] => white
  | ['\n'] => [' ']
  | '\n' :: more => more
  | breaks => breaks

/-- **The text still to be read**, and where it begins. -/
structure Cursor where
  rest : List Char
  index : Nat
  line : Nat
  column : Nat

namespace Cursor

/-- The cursor in front of a text. A byte order mark is passed over. -/
def ofChars : List Char → Cursor
  | '\ufeff' :: cs => ⟨cs, 0, 0, 0⟩
  | cs => ⟨cs, 0, 0, 0⟩

/-- Behind the next character. -/
def step (c : Cursor) : Cursor :=
  match c.rest with
  | [] => c
  | '\r' :: '\n' :: rest => ⟨'\n' :: rest, c.index + 1, c.line, c.column + 1⟩
  | x :: rest =>
    if isBreak x then ⟨rest, c.index + 1, c.line + 1, 0⟩
    else ⟨rest, c.index + 1, c.line, c.column + 1⟩

/-- **Behind a number of characters.** -/
def skip : Nat → Cursor → Cursor
  | 0, c => c
  | n + 1, c => skip n c.step

/-- Behind all characters in front of a rest of the text. -/
def upTo (rest : List Char) (c : Cursor) : Cursor :=
  c.skip (c.rest.length - rest.length)

/-- The next character. -/
def head? (c : Cursor) : Option Char := c.rest.head?

/-- The character behind the next one. -/
def second? (c : Cursor) : Option Char := c.rest[1]?

/-- Whether the next character is given. -/
def begins (x : Char) (c : Cursor) : Bool := c.head? == some x

/-- Passes over the characters that come next and are of a kind. -/
def skipWhile (p : Char → Bool) (c : Cursor) : Cursor :=
  c.skip (c.rest.takeWhile p).length

/-- Passes over the rest of the line, up to its break. -/
def skipLine (c : Cursor) : Cursor :=
  c.skipWhile (!isBreak ·)

/-- The break that comes next in normal form, and the cursor behind it. -/
def takeBreak (c : Cursor) : List Char × Cursor :=
  match c.rest with
  | '\r' :: '\n' :: _ => (['\n'], c.skip 2)
  | x :: _ => if isBreak x then (breaksOf [x], c.skip 1) else ([], c)
  | [] => ([], c)

end Cursor

/-- White or the end. -/
def endsWord : Option Char → Bool
  | none => true
  | some c => isWhite c

/-- Whether a line of three given marks begins here. -/
def Cursor.atMarks (x : Char) (c : Cursor) : Bool :=
  c.column == 0 && c.rest.take 3 == [x, x, x] && endsWord c.rest[3]?

/-- Whether a document begins or ends here. -/
def Cursor.atDocumentMark (c : Cursor) : Bool :=
  c.atMarks '-' || c.atMarks '.'

end SchemaRules.Yaml
