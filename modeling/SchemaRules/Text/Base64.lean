/-!
# Base64

Bytes written with sixty-four symbols: three bytes are four symbols, and the last symbols
are filled up to four with padding.

* `encode` writes bytes.
* `decode` reads them back. Only what `encode` writes is read: padding is complete and in
  its place, and the bits beyond the last byte are zero.
-/

namespace SchemaRules.Base64

/-- The symbols in the order of their values. -/
def alphabet : List Char :=
  "ABCDEFGHIJKLMNOPQRSTUVWXYZabcdefghijklmnopqrstuvwxyz0123456789+/".toList

/-- The symbol of a value below 64. -/
def symbol (n : Nat) : Char :=
  alphabet.getD n '='

/-- The value of a symbol. -/
def value? (b : UInt8) : Option Nat :=
  let n := b.toNat
  if 65 ≤ n ∧ n ≤ 90 then some (n - 65)
  else if 97 ≤ n ∧ n ≤ 122 then some (n - 71)
  else if 48 ≤ n ∧ n ≤ 57 then some (n + 4)
  else if n = 43 then some 62
  else if n = 47 then some 63
  else none

/-- The byte of the padding. -/
def pad : UInt8 := 61

/-- **The text of bytes.** -/
def encode : List UInt8 → List Char
  | [] => []
  | [a] => [symbol (a.toNat / 4), symbol (a.toNat % 4 * 16), '=', '=']
  | [a, b] =>
    [symbol (a.toNat / 4), symbol (a.toNat % 4 * 16 + b.toNat / 16),
      symbol (b.toNat % 16 * 4), '=']
  | a :: b :: c :: rest =>
    symbol (a.toNat / 4) :: symbol (a.toNat % 4 * 16 + b.toNat / 16) ::
      symbol (b.toNat % 16 * 4 + c.toNat / 64) :: symbol (c.toNat % 64) :: encode rest

/-- Why a text is not one of bytes. -/
inductive Failure where
  | badSymbol (offset : Nat) (byte : UInt8)
  | badLength (length : Nat)
  | badPadding
  /-- The last symbol has bits beyond the last byte. -/
  | badLastSymbol (offset : Nat) (byte : UInt8)
  deriving DecidableEq

/-- The wording of a failure. -/
def Failure.message : Failure → String
  | badSymbol offset byte => s!"Invalid symbol {byte.toNat}, offset {offset}."
  | badLength length => s!"Invalid input length: {length}"
  | badPadding => "Invalid padding"
  | badLastSymbol offset byte => s!"Invalid last symbol {byte.toNat}, offset {offset}."

/-- The values of symbols; the first byte that is none is reported. -/
def values (offset : Nat) : List UInt8 → Except Failure (List Nat)
  | [] => .ok []
  | b :: rest =>
    match value? b with
    | some n => (n :: ·) <$> values (offset + 1) rest
    | none => .error (.badSymbol offset b)

/-- The bytes of two values up to four, and the bits left over. -/
def bytesOf : List Nat → List UInt8 × Nat
  | [a, b] => ([(a * 4 + b / 16).toUInt8], b % 16)
  | [a, b, c] => ([(a * 4 + b / 16).toUInt8, (b % 16 * 16 + c / 4).toUInt8], c % 4)
  | [a, b, c, d] =>
    ([(a * 4 + b / 16).toUInt8, (b % 16 * 16 + c / 4).toUInt8, (c % 4 * 64 + d).toUInt8], 0)
  | _ => ([], 0)

/-- The last symbols, four at most, with their padding. -/
def decodeLast (offset : Nat) (quad : List UInt8) : Except Failure (List UInt8) := do
  let symbols := quad.takeWhile (· ≠ pad)
  let padding := quad.dropWhile (· ≠ pad)
  let count := symbols.length
  let ns ← values offset symbols
  if !padding.isEmpty && (count < 2 || padding.any (· ≠ pad)) then
    throw (.badSymbol (offset + count) pad)
  if count < 2 then throw (.badLength (offset + count))
  if quad.length ≠ 4 then throw .badPadding
  let (bytes, left) := bytesOf ns
  if left ≠ 0 then throw (.badLastSymbol (offset + count - 1) ((symbols.getLast?).getD pad))
  return bytes

/-- The symbols from an offset on; all but the last four have no padding. -/
def decodeFrom (offset : Nat) : List UInt8 → Except Failure (List UInt8)
  | [] => .ok []
  | a :: b :: c :: d :: e :: rest => do
    let ns ← values offset [a, b, c, d]
    return (bytesOf ns).1 ++ (← decodeFrom (offset + 4) (e :: rest))
  | quad => decodeLast offset quad

/-- A byte that is left over behind full groups and no symbol. -/
def strayByte? (input : List UInt8) : Option UInt8 :=
  if input.length % 4 = 1 then
    input.getLast?.filter fun b => b ≠ pad && (value? b).isNone
  else none

/-- **The bytes that a text writes**, given by its own bytes. A stray byte at the end is reported in
front of everything else. -/
def decode (input : List UInt8) : Except Failure (List UInt8) :=
  match strayByte? input with
  | some b => .error (.badSymbol (input.length - 1) b)
  | none => decodeFrom 0 input

end SchemaRules.Base64
