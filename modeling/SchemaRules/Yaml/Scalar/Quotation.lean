import SchemaRules.Decimal.Reader
import SchemaRules.Yaml.Cursor

/-!
# Quoted scalars

Between single quotes a quote is written twice. Between double quotes a backslash escapes
a character or a break. White with a break in it is folded.
-/

namespace SchemaRules.Yaml.Quotation

/-- The character that a backslash and another character write. -/
def escaped? : Char → Option Char
  | '0' => some '\x00'
  | 'a' => some '\x07'
  | 'b' => some '\x08'
  | 't' => some '\t'
  | '\t' => some '\t'
  | 'n' => some '\n'
  | 'v' => some '\x0b'
  | 'f' => some '\x0c'
  | 'r' => some '\r'
  | 'e' => some '\x1b'
  | ' ' => some ' '
  | '"' => some '"'
  | '/' => some '/'
  | '\\' => some '\\'
  | 'N' => some '\x85'
  | '_' => some '\xa0'
  | 'L' => some '\u2028'
  | 'P' => some '\u2029'
  | _ => none

/-- The digits of the code point behind an escape. -/
def codeLength? : Char → Option Nat
  | 'x' => some 2
  | 'u' => some 4
  | 'U' => some 8
  | _ => none

/-- The character with a code point in digits of radix 16. -/
def charOf? (digits : List Char) : Option Char := do
  let n ← Decimal.readDigits? 16 0 digits
  if n.isValidChar then some (Char.ofNat n) else none

/-- A piece of a quoted scalar: its text, whether it ends with an escaped break, and what follows.
-/
structure Piece where
  text : List Char
  joins : Bool
  rest : List Char

/-- The piece with a text in front. -/
def Piece.after (text : List Char) (p : Piece) : Piece :=
  { p with text := text ++ p.text }

/-- The piece up to white or a single quote that stands alone. -/
def singlePiece : List Char → Piece
  | [] => ⟨[], false, []⟩
  | '\'' :: '\'' :: rest => (singlePiece rest).after ['\'']
  | c :: rest =>
    if c = '\'' ∨ isWhite c then ⟨[], false, c :: rest⟩ else (singlePiece rest).after [c]

/-- What follows a break. -/
def behindBreak : List Char → List Char
  | '\r' :: '\n' :: rest => rest
  | _ :: rest => rest
  | [] => []

/-- The piece up to white, a double quote or behind an escaped break. -/
def doublePiece : Nat → List Char → Option Piece
  | 0, _ => none
  | _ + 1, [] => some ⟨[], false, []⟩
  | fuel + 1, '\\' :: c :: rest =>
    if isBreak c then some ⟨[], true, behindBreak (c :: rest)⟩
    else
      match codeLength? c with
      | some n => do
        let digits := rest.take n
        if digits.length < n then none
        let x ← charOf? digits
        return (← doublePiece fuel (rest.drop n)).after [x]
      | none => do
        let x ← escaped? c
        return (← doublePiece fuel rest).after [x]
  | fuel + 1, c :: rest =>
    if c = '"' ∨ isWhite c then some ⟨[], false, c :: rest⟩
    else if c = '\\' then none
    else do return (← doublePiece fuel rest).after [c]

/-- **The text up to the closing quote**, and the cursor behind the quote. -/
def takeFrom (quote : Char) : Nat → Cursor → Option (List Char × Cursor)
  | 0, _ => none
  | fuel + 1, c => do
    if c.atDocumentMark || c.rest.isEmpty then none
    let piece ←
      if quote = '"' then doublePiece (c.rest.length + 1) c.rest else some (singlePiece c.rest)
    let c := c.upTo piece.rest
    if !piece.joins && c.begins quote then return (piece.text, c.step)
    let white := c.rest.takeWhile isWhite
    let (more, c) ← takeFrom quote fuel (c.skip white.length)
    return (piece.text ++ (if piece.joins then breaksOf white else fold white) ++ more, c)

/-- The quoted scalar that begins here with its quote. -/
def take (quote : Char) (c : Cursor) : Option (List Char × Cursor) :=
  takeFrom quote (c.rest.length + 1) c.step

end SchemaRules.Yaml.Quotation
