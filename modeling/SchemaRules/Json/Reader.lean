import SchemaRules.Json.Cursor
import SchemaRules.Text.Bytes

/-!
# Reading JSON

The text of a JSON value in full. Objects come out in key order, of equal keys the
last wins; containers nest up to a limit.

* A whole number that fits 64 bits, signed or unsigned, stays whole; every other
  number is a double. `-0` is one too.
* A double is scaled from the digits that fit 64 bits by a power of ten, so the last
  bit may differ from the nearest double.
-/

namespace SchemaRules.Json

/-- Containers may nest this deep. -/
def depthLimit : Nat := 127

/-- The largest whole number of 64 bits. -/
def wordMax : Nat := 0xffff_ffff_ffff_ffff

/-- The value of a digit of radix 16. -/
def hexValue? (c : Char) : Option Nat :=
  (Decimal.digitValue? c).filter (· < 16)

namespace Reader

/-- Takes four hexadecimal digits. -/
def codeUnit : Reader Nat := do
  let c ← get
  match c.rest with
  | w :: x :: y :: z :: rest =>
    match hexValue? w, hexValue? x, hexValue? y, hexValue? z with
    | some w, some x, some y, some z =>
      set (Cursor.mk rest ⟨c.here.line, c.here.column + 4⟩)
      return ((w * 16 + x) * 16 + y) * 16 + z
    | _, _, _, _ => tooShortOrBad c
  | _ => tooShortOrBad c
where
  /-- Four bytes that are not all digits, or fewer than four bytes. -/
  tooShortOrBad (c : Cursor) : Reader Nat :=
    if Text.byteLength c.rest < 4 then
      throw ⟨.endInText, c.rest.foldl Position.past c.here⟩
    else throw ⟨.badEscape, c.here.pastBytes 4 c.rest⟩

/-- Passes over one character of a pair of escapes. -/
def pairMark (mark : Char) : Reader Unit := do
  match ← peek? with
  | none => failHere .endInText
  | some c => if c = mark then skip else failAhead .brokenSurrogatePair

/-- The character of an escape by code units, a pair of surrogates being one character. -/
def codePoint : Reader Char := do
  let high ← codeUnit
  if 0xDC00 ≤ high && high ≤ 0xDFFF then failHere .loneSurrogate
  else if 0xD800 ≤ high && high ≤ 0xDBFF then
    pairMark '\\'
    pairMark 'u'
    let low ← codeUnit
    if 0xDC00 ≤ low && low ≤ 0xDFFF then
      return Char.ofNat ((high - 0xD800) * 0x400 + (low - 0xDC00) + 0x10000)
    else failHere .loneSurrogate
  else return Char.ofNat high

/-- The character that a letter behind a backslash stands for. -/
def shortEscape? : Char → Option Char
  | '"' => some '"'
  | '\\' => some '\\'
  | '/' => some '/'
  | 'b' => some '\x08'
  | 'f' => some '\x0c'
  | 'n' => some '\n'
  | 'r' => some '\r'
  | 't' => some '\t'
  | _ => none

/-- The character of an escape, behind its backslash. -/
def escaped : Reader Char := do
  match ← peek? with
  | none => failHere .endInText
  | some c =>
    if c = 'u' then
      skip
      codePoint
    else
      match shortEscape? c with
      | some d =>
        skip
        return d
      | none => failAhead .badEscape

/-- The characters up to the closing quote, at most `fuel` of them. -/
def quotedChars : Nat → Reader (List Char)
  | 0 => failHere .endInText
  | fuel + 1 => do
    match ← peek? with
    | none => failHere .endInText
    | some c =>
      if c = '"' then
        skip
        return []
      else if c = '\\' then
        skip
        let d ← escaped
        return d :: (← quotedChars fuel)
      else if c.toNat < 0x20 then failAhead .controlInText
      else
        skip
        return c :: (← quotedChars fuel)

/-- **A text**, behind its opening quote. -/
def text : Reader String := do
  return String.ofList (← quotedChars ((← get).rest.length + 1))

/-- Takes digits into a number as long as it fits 64 bits; the digits that no longer fit
are only counted. -/
def absorb (n : Nat) : List Char → Nat × Nat × Nat
  | [] => (n, 0, 0)
  | c :: cs =>
    let m := n * 10 + (c.toNat - '0'.toNat)
    if m ≤ wordMax then
      let (r, taken, left) := absorb m cs
      (r, taken + 1, left)
    else (n, 0, (c :: cs).length)

/-- A power of ten as a double. -/
def powerOfTen (n : Nat) : Float :=
  Float.ofScientific 1 false n

/-- `x · 10 ^ e` in steps that a double can hold; none when it is infinite. -/
def scale? : Nat → Float → Int → Option Float
  | 0, _, _ => some 0.0
  | fuel + 1, x, e =>
    if e.natAbs ≤ 308 then
      let y := if 0 ≤ e then x * powerOfTen e.natAbs else x / powerOfTen e.natAbs
      if y.isInf then none else some y
    else if x == 0.0 then some x
    else if 0 ≤ e then none
    else scale? fuel (x / powerOfTen 308) (e + 308)

/-- The double of a sign, a whole number and a power of ten. -/
def scaled (negative : Bool) (n : Nat) (e : Int) : Reader Float := do
  match scale? 8 (Float.ofNat n) e with
  | some x => return if negative then -x else x
  | none => failHere .numberTooLarge

/-- The largest exponent that is counted. -/
def exponentMax : Nat := 0x7fff_ffff

/-- A double whose exponent comes next, behind its letter. -/
def exponent (negative : Bool) (n : Nat) (e : Int) : Reader Float := do
  let down ←
    match ← peek? with
    | some '+' => skip *> pure false
    | some '-' => skip *> pure true
    | _ => pure false
  match ← peek? with
  | none => failHere .endInValue
  | some c =>
    if !Decimal.isDigit c then failAhead .badNumber
    else
      let before ← get
      let run ← digits
      let size := Decimal.digitsValue run
      if size > exponentMax then
        if n ≠ 0 ∧ !down then
          let fits := (List.range run.length).takeWhile fun k =>
            Decimal.digitsValue (run.take (k + 1)) ≤ exponentMax
          throw ⟨.numberTooLarge,
            ⟨before.here.line, before.here.column + (fits.length + 1)⟩⟩
        else return if negative then -0.0 else 0.0
      else scaled negative n (if down then e - size else e + size)

/-- A double with an exponent or without. -/
def perhapsExponent (negative : Bool) (n : Nat) (e : Int) : Reader Float := do
  match ← peek? with
  | some c =>
    if c = 'e' || c = 'E' then
      skip
      exponent negative n e
    else scaled negative n e
  | none => scaled negative n e

/-- **A number**, behind its sign. -/
def number (negative : Bool) : Reader Json := do
  match ← peek? with
  | none => failHere .endInValue
  | some c =>
    if !Decimal.isDigit c then failAhead .badNumber
    else
      let run ←
        if c = '0' then
          skip
          if ((← peek?).map Decimal.isDigit).getD false then failAhead .badNumber
          pure ['0']
        else digits
      let (n, _, dropped) := absorb 0 run
      match ← peek? with
      | some '.' =>
        skip
        let fraction ← digits
        if fraction.isEmpty then
          if (← peek?).isSome then failAhead .badNumber else failHere .endInValue
        else
          let (m, taken, _) := absorb n fraction
          return double (← perhapsExponent negative m (dropped - taken))
      | some 'e' => return double (← perhapsExponent negative n dropped)
      | some 'E' => return double (← perhapsExponent negative n dropped)
      | _ =>
        if dropped ≠ 0 then return double (← scaled negative n dropped)
        else if !negative then return int n
        else if n = 0 ∨ n > 0x8000_0000_0000_0000 then return double (-(Float.ofNat n))
        else return int (-n)

/-- A value that is no container, of which `c` is the first character; none for brackets. -/
def scalar? (c : Char) : Reader (Option Json) :=
  match c with
  | 'n' => skip *> word ['u', 'l', 'l'] *> pure (some null)
  | 't' => skip *> word ['r', 'u', 'e'] *> pure (some (bool true))
  | 'f' => skip *> word ['a', 'l', 's', 'e'] *> pure (some (bool false))
  | '-' => skip *> some <$> number true
  | '"' => skip *> (fun s => some (str s)) <$> text
  | '[' => pure none
  | '\x7b' => pure none
  | c => if Decimal.isDigit c then some <$> number false else failAhead .valueExpected

/-- Stands before the next member behind a comma, or tells that the closing bracket comes. -/
def moreItems (first : Bool) : Reader Bool := do
  match ← peekInk? with
  | none => failHere .endInList
  | some ']' => return false
  | some c =>
    if first then return true
    else if c = ',' then
      skip
      match ← peekInk? with
      | none => failHere .endInValue
      | some ']' => failAhead .commaAtEnd
      | some _ => return true
    else failAhead .commaOrBracketExpected

/-- Stands at the quote of the next key, or tells that the closing brace comes. -/
def moreKeys (first : Bool) : Reader Bool := do
  match ← peekInk? with
  | none => failHere .endInObject
  | some '\x7d' => return false
  | some c =>
    if first then
      if c = '"' then return true else failAhead .keyNotText
    else if c = ',' then
      skip
      match ← peekInk? with
      | none => failHere .endInValue
      | some '"' => return true
      | some '\x7d' => failAhead .commaAtEnd
      | some _ => failAhead .keyNotText
    else failAhead .commaOrBraceExpected

variable {α σ : Type}

/-- The items up to the closing bracket, at most `fuel` of them. -/
def items (item : Reader α) : Nat → Bool → Reader (List α)
  | 0, _ => failHere .endInList
  | fuel + 1, first => do
    if ← moreItems first then
      let x ← item
      return x :: (← items item fuel false)
    else
      skip
      return []

/-- Goes through the entries up to the closing brace, at most `fuel` of them, with `entry`
reading on behind each key. -/
def entries (entry : σ → String → Reader σ) : Nat → Bool → σ → Reader σ
  | 0, _, _ => failHere .endInObject
  | fuel + 1, first, s => do
    if ← moreKeys first then
      skip
      let key ← text
      entries entry fuel false (← entry s key)
    else
      skip
      return s

/-- **A value** in which containers nest at most `depth` deep. -/
def value (depth : Nat) : Reader Json := do
  match ← peekInk? with
  | none => failHere .endInValue
  | some c =>
    match ← scalar? c with
    | some v => return v
    | none =>
      match depth with
      | 0 => failAhead .tooDeep
      | depth + 1 =>
        skip
        let fuel := (← get).rest.length + 1
        if c = '[' then return arr (← items (value depth) fuel true)
        else
          let entry (fields : List (String × Json)) (key : String) : Reader _ := do
            colon
            return Fields.insert key (← value depth) fields
          return obj (← entries entry fuel true [])

/-- What `r` reads, with nothing but blanks behind it. -/
def inFull (r : Reader α) : Reader α := do
  let x ← r
  if (← peekInk?).isSome then failAhead .trailingText
  return x

/-- What a reader takes from a whole text. -/
def readAll (r : Reader α) (s : String) : Except Failure α :=
  match (inFull r).run (Cursor.ofChars s.toList) with
  | .ok (x, _) => .ok x
  | .error f => .error f

end Reader

/-- **The value that a text writes.** -/
def ofText (s : String) : Except Failure Json :=
  (Reader.value depthLimit).readAll s

end SchemaRules.Json
