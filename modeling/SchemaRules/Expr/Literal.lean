import SchemaRules.Decimal.Reader
import SchemaRules.Text.Bytes
import SchemaRules.Value.Basic

/-!
# Literals

The values that the tokens of literals stand for.

* Inside quotes a backslash begins an escape. A quote of the other kind loses its meaning
  but not its backslash; each quote of the own kind closes or opens again, and nothing may
  stand between.
* Raw text has no escapes but that of the own quote.
* Bytes know escapes by two digits of radix 16 and three of radix 8 only.
-/

namespace SchemaRules.Literal

/-- A whole number with an optional sign, in radix 16 behind `0x`. -/
def wholeOf? (cs : List Char) : Option Int :=
  match cs with
  | '0' :: 'x' :: digits => (Decimal.readNat? 16 digits).map Int.ofNat
  | _ => Decimal.readInt? 10 cs

/-- The value of a signed number. -/
def int? (text : List Char) : Option Value :=
  (wholeOf? text).bind fun n => if Value.isInt n then some (.int n) else none

/-- The value of an unsigned number. -/
def uint? (text : List Char) : Option Value :=
  (wholeOf? text).bind fun n => if Value.isUint n then some (.uint n.toNat) else none

/-- The value of a double; it must be finite. -/
def double? (text : List Char) : Option Value :=
  (Decimal.readFloat? text).bind fun x => if x.isInf then none else some (.double x)

/-- The character of a code point in a radix, if there is one. -/
def charOf? (radix : Nat) (digits : List Char) : Option Char := do
  let n ← Decimal.readNat? radix digits
  if n.isValidChar then some (Char.ofNat n) else none

/-- The characters of a quotation that have a letter of their own behind the backslash. -/
def controlOf? : Char → Option Char
  | 'a' => some '\x07'
  | 'b' => some '\x08'
  | 'f' => some '\x0c'
  | 'n' => some '\n'
  | 'r' => some '\r'
  | 't' => some '\t'
  | 'v' => some '\x0b'
  | '\\' => some '\\'
  | '?' => some '?'
  | '\x60' => some '\x60'
  | _ => none

/-- The characters that an escape stands for inside quotes of kind `q`, behind the backslash, and
what follows it. -/
def takeEscape? (q : Char) (cs : List Char) : Option (List Char × List Char) :=
  let code (n : Nat) (rest : List Char) : Option (List Char × List Char) :=
    (charOf? 16 (rest.take n)).map fun c => ([c], rest.drop n)
  match cs with
  | [] => none
  | c :: rest =>
    match controlOf? c with
    | some d => some ([d], rest)
    | none =>
      if c = '"' ∨ c = '\'' then some (if c = q then [c] else ['\\', c], rest)
      else if c = 'x' then code 2 rest
      else if c = 'u' then code 4 rest
      else if c = 'U' then code 8 rest
      else if '0' ≤ c ∧ c ≤ '3' then
        (charOf? 8 (cs.take 3)).map fun d => ([d], cs.drop 3)
      else none

/-- The characters of a quotation, `opened` being the quote that is open; after `fuel` steps at
most. -/
def textFrom : Nat → Option Char → List Char → Option (List Char)
  | 0, _, _ => none
  | fuel + 1, opened, cs =>
    match opened, cs with
    | none, [] => some []
    | some _, [] => none
    | none, c :: rest => if c = '"' ∨ c = '\'' then textFrom fuel (some c) rest else none
    | some q, c :: rest =>
      if c = '\\' then
        match takeEscape? q rest with
        | some (ds, rest) => (ds ++ ·) <$> textFrom fuel opened rest
        | none => none
      else if c = q then textFrom fuel none rest
      else (c :: ·) <$> textFrom fuel opened rest

/-- The characters of a raw quotation, behind its letter. A quote that stays open at the end is no
fault. -/
def rawFrom : Option Char → List Char → Option (List Char)
  | _, [] => some []
  | none, c :: rest => if c = '"' ∨ c = '\'' then rawFrom (some c) rest else none
  | some _, ['\\'] => some ['\\']
  | some q, '\\' :: c :: rest =>
    let kept := if c = q then [c] else ['\\', c]
    (kept ++ ·) <$> rawFrom (some q) rest
  | some q, c :: rest =>
    if c = q then rawFrom none rest else (c :: ·) <$> rawFrom (some q) rest

/-- The value of a quotation. -/
def text? (token : List Char) : Option Value :=
  let chars :=
    match token with
    | 'r' :: rest => rawFrom none rest
    | 'R' :: rest => rawFrom none rest
    | _ => textFrom (token.length + 1) none token
  chars.map fun cs => .str (String.ofList cs)

/-- The bytes that characters and escapes stand for, after `fuel` steps at most. -/
def bytesFrom : Nat → List Char → Option (List UInt8)
  | 0, _ => none
  | _, [] => some []
  | fuel + 1, '\\' :: rest =>
    match rest with
    | 'x' :: a :: b :: rest => do
      let n ← Decimal.readNat? 16 [a, b]
      return n.toUInt8 :: (← bytesFrom fuel rest)
    | a :: b :: c :: rest =>
      if '0' ≤ a ∧ a ≤ '3' then do
        let n ← Decimal.readNat? 8 [a, b, c]
        return n.toUInt8 :: (← bytesFrom fuel rest)
      else none
    | _ => none
  | fuel + 1, c :: rest => (Text.toBytes (String.singleton c) ++ ·) <$> bytesFrom fuel rest

/-- **The value of a quotation of bytes**: what stands between its second character and its last
one. -/
def bytes? (token : List Char) : Option Value :=
  let body := (token.drop 2).dropLast
  (bytesFrom (body.length + 1) body).map .bytes

end SchemaRules.Literal
