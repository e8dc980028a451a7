import SchemaRules.Decimal.Reader
import SchemaRules.Identifier
import SchemaRules.Text.Blank
import SchemaRules.Text.Search

/-!
# Tokens of expressions

The words, numbers, quotations and marks of an expression. At each place the longest
token is taken; blanks and comments stand between tokens.

* `Token.scan` cuts a text into tokens; none when some place begins no token.
-/

namespace SchemaRules

/-- **A token.** Quotations keep their quotes and escapes. -/
inductive Token where
  | ident (text : String)
  /-- A field name between backquotes, which stay. -/
  | backquoted (text : String)
  | int (text : String)
  | uint (text : String)
  | double (text : String)
  | quoted (text : List Char)
  | bytes (text : List Char)
  | mark (text : String)
  | yes
  | no
  | null
  deriving DecidableEq

namespace Token

/-- The marks, the longer ones in front. -/
def marks : List String :=
  ["==", "!=", "<=", ">=", "&&", "||", "<", ">", "[", "]", "\x7b", "\x7d", "(", ")", ".", ",", "-",
    "!", "?", ":", "+", "*", "/", "%"]

/-- A digit of radix 16. -/
def isHex (c : Char) : Bool :=
  ((Decimal.digitValue? c).filter (· < 16)).isSome

/-- Cuts a number of characters off the front of a text. -/
def cutAt (n : Nat) (cs : List Char) : List Char × List Char :=
  (cs.take n, cs.drop n)

/-! ## Numbers -/

/-- The length of an exponent in front of a text; zero when there is none. -/
def exponentLength (cs : List Char) : Nat :=
  match cs with
  | e :: rest =>
    if e = 'e' ∨ e = 'E' then
      let sign := match rest with
        | '+' :: _ => 1
        | '-' :: _ => 1
        | _ => 0
      let digits := ((rest.drop sign).takeWhile Decimal.isDigit).length
      if digits = 0 then 0 else 1 + sign + digits
    else 0
  | [] => 0

/-- The length of a point with digits in front of a text; zero when there is none. -/
def fractionLength (cs : List Char) : Nat :=
  match cs with
  | '.' :: rest =>
    let digits := (rest.takeWhile Decimal.isDigit).length
    if digits = 0 then 0 else 1 + digits
  | _ => 0

/-- The length of digits of radix 16 behind `0x`; zero when there are none. -/
def hexLength (cs : List Char) : Nat :=
  match cs with
  | '0' :: 'x' :: rest =>
    let digits := (rest.takeWhile isHex).length
    if digits = 0 then 0 else 2 + digits
  | _ => 0

/-- Whether the mark of unsigned numbers comes first. -/
def isUnsigned (cs : List Char) : Bool :=
  cs.head? = some 'u' || cs.head? = some 'U'

/-- A number in front of a text that begins with a digit, or with a point and a digit. -/
def takeNumber (cs : List Char) : Token × List Char :=
  let hex := hexLength cs
  let whole := if hex = 0 then (cs.takeWhile Decimal.isDigit).length else hex
  let fraction := if hex = 0 then fractionLength (cs.drop whole) else 0
  let exponent := if hex = 0 then exponentLength (cs.drop (whole + fraction)) else 0
  if fraction + exponent > 0 then
    let (text, rest) := cutAt (whole + fraction + exponent) cs
    (double (String.ofList text), rest)
  else
    let (text, rest) := cutAt whole cs
    if isUnsigned rest then (uint (String.ofList text), rest.drop 1)
    else (int (String.ofList text), rest)

/-! ## Quotations -/

/-- The length of what may follow a backslash in a quotation; zero when nothing may. -/
def escapeLength (cs : List Char) : Nat :=
  let hexRun (n : Nat) (rest : List Char) : Nat :=
    if (rest.take n).length = n ∧ (rest.take n).all isHex then n + 1 else 0
  match cs with
  | [] => 0
  | c :: rest =>
    if "abfnrtv\"'\\?`".toList.contains c then 1
    else if c = 'x' ∨ c = 'X' then hexRun 2 rest
    else if c = 'u' then hexRun 4 rest
    else if c = 'U' then hexRun 8 rest
    else
      match cs with
      | x :: y :: z :: _ =>
        if '0' ≤ x ∧ x ≤ '3' ∧ '0' ≤ y ∧ y ≤ '7' ∧ '0' ≤ z ∧ z ≤ '7' then 3 else 0
      | _ => 0

/-- The length of a quotation from behind its opening quotes to behind its closing ones, after
`fuel` steps at most. -/
def bodyLength? (raw : Bool) (closing : List Char) : Nat → List Char → Option Nat
  | 0, _ => none
  | fuel + 1, cs =>
    if Text.beginsWith closing cs then some closing.length
    else
      match cs with
      | [] => none
      | c :: rest =>
        if c = '\\' ∧ !raw then
          let n := escapeLength rest
          if n = 0 then none
          else (bodyLength? raw closing fuel (rest.drop n)).map (· + 1 + n)
        else if closing.length = 1 ∧ (c = '\n' ∨ c = '\r') then none
        else (bodyLength? raw closing fuel rest).map (· + 1)

/-- The length of a quotation in front of a text. Three quotes open it if three close it. -/
def quotationLength? (raw : Bool) (cs : List Char) : Option Nat :=
  match cs with
  | q :: rest =>
    if q = '"' ∨ q = '\'' then
      let long := [q, q, q]
      let byThree :=
        (Text.after? long cs).bind fun body => bodyLength? raw long (body.length + 1) body
      match byThree with
      | some n => some (n + 3)
      | none => (bodyLength? raw [q] (rest.length + 1) rest).map (· + 1)
    else none
  | [] => none

/-- The length of a quotation with the letter of raw ones, if it has that. -/
def stringLength? (cs : List Char) : Option Nat :=
  match cs with
  | c :: rest =>
    if c = 'r' ∨ c = 'R' then (quotationLength? true rest).map (· + 1)
    else quotationLength? false cs
  | [] => none

/-- A quotation or one of bytes in front of a text. -/
def takeQuotation? (cs : List Char) : Option (Token × List Char) :=
  let ofBytes :=
    match cs with
    | c :: rest => if c = 'b' ∨ c = 'B' then (stringLength? rest).map (· + 1) else none
    | [] => none
  match ofBytes, stringLength? cs with
  | some n, _ => some (bytes (cs.take n), cs.drop n)
  | none, some n => some (quoted (cs.take n), cs.drop n)
  | none, none => none

/-! ## Words and marks -/

/-- The token of a word. -/
def ofWord (word : String) : Token :=
  match word with
  | "true" => yes
  | "false" => no
  | "null" => null
  | "in" => mark "in"
  | _ => ident word

/-- A character of a name between backquotes. -/
def isBackquotable (c : Char) : Bool :=
  isNamePart c || c = '.' || c = '/' || c = '-' || c = ' '

/-- A name between backquotes in front of a text. -/
def takeBackquoted? (cs : List Char) : Option (Token × List Char) :=
  match cs with
  | '\x60' :: rest =>
    let name := rest.takeWhile isBackquotable
    match rest.dropWhile isBackquotable with
    | '\x60' :: after =>
      if name.isEmpty then none
      else some (backquoted (String.ofList ('\x60' :: name ++ ['\x60'])), after)
    | _ => none
  | _ => none

/-- A mark in front of a text. -/
def takeMark? (cs : List Char) : Option (Token × List Char) :=
  marks.findSome? fun m => (Text.after? m.toList cs).map fun rest => (mark m, rest)

/-- **The longest token** in front of a text, and what follows it. -/
def take? (cs : List Char) : Option (Token × List Char) :=
  match cs with
  | [] => none
  | c :: _ =>
    match takeQuotation? cs with
    | some found => some found
    | none =>
      if isNameStart c then
        some (ofWord (String.ofList (cs.takeWhile isNamePart)), cs.dropWhile isNamePart)
      else if Decimal.isDigit c ∨ fractionLength cs > 0 then some (takeNumber cs)
      else if c = '\x60' then takeBackquoted? cs
      else takeMark? cs

/-- Whether a comment comes first; it goes to the end of the line. -/
def isComment (cs : List Char) : Bool :=
  Text.beginsWith ['/', '/'] cs

/-- The tokens of a text, at most `fuel` of them with the blanks and comments between them. -/
def scanFrom : Nat → List Char → Option (List Token)
  | 0, _ => none
  | _ + 1, [] => some []
  | fuel + 1, c :: rest =>
    if isComment (c :: rest) then scanFrom fuel (rest.dropWhile (· ≠ '\n'))
    else if Text.isBlank c then scanFrom fuel rest
    else
      match take? (c :: rest) with
      | some (t, rest) => (t :: ·) <$> scanFrom fuel rest
      | none => none

/-- **The tokens of a text**, if it consists of tokens. -/
def scan (text : String) : Option (List Token) :=
  let cs := text.toList
  scanFrom (cs.length + 1) cs

end Token

end SchemaRules
