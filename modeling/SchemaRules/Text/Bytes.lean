/-!
# Text as bytes

The bytes of UTF-8 that encode a text, and the text that bytes encode. Bytes that are no
UTF-8 become replacement characters, one for each longest run that begins a character
and breaks off.
-/

namespace SchemaRules.Text

/-- The bytes of a text. -/
def toBytes (s : String) : List UInt8 :=
  s.toByteArray.data.toList

/-- The number of bytes that encode some characters. -/
def byteLength (cs : List Char) : Nat :=
  cs.foldl (fun n c => n + c.utf8Size) 0

/-- What stands for bytes that encode no character. -/
def replacement : Char := '\ufffd'

/-- Whether a byte continues a character. -/
def continues (b : UInt8) : Bool :=
  0x80 ≤ b && b ≤ 0xBF

/-- Whether a byte may follow the first byte of a character. -/
def mayFollow (first second : UInt8) : Bool :=
  if first = 0xE0 then 0xA0 ≤ second && second ≤ 0xBF
  else if first = 0xED then 0x80 ≤ second && second ≤ 0x9F
  else if first = 0xF0 then 0x90 ≤ second && second ≤ 0xBF
  else if first = 0xF4 then 0x80 ≤ second && second ≤ 0x8F
  else continues second

/-- The bits of a byte that belong to the code point, below a power of two. -/
def payload (b : UInt8) (size : Nat) : Nat :=
  b.toNat % size

/-- The characters that bytes encode. -/
def charsOfBytes : List UInt8 → List Char
  | [] => []
  | a :: rest =>
    if a < 0x80 then Char.ofNat a.toNat :: charsOfBytes rest
    else if a < 0xC2 || 0xF4 < a then replacement :: charsOfBytes rest
    else
      match rest with
      | [] => [replacement]
      | b :: rest =>
        if !mayFollow a b then replacement :: charsOfBytes (b :: rest)
        else if a < 0xE0 then
          Char.ofNat (payload a 32 * 64 + payload b 64) :: charsOfBytes rest
        else
          match rest with
          | [] => [replacement]
          | c :: rest =>
            if !continues c then replacement :: charsOfBytes (c :: rest)
            else if a < 0xF0 then
              Char.ofNat ((payload a 16 * 64 + payload b 64) * 64 + payload c 64) ::
                charsOfBytes rest
            else
              match rest with
              | [] => [replacement]
              | d :: rest =>
                if !continues d then replacement :: charsOfBytes (d :: rest)
                else
                  Char.ofNat (((payload a 8 * 64 + payload b 64) * 64 + payload c 64) * 64 +
                    payload d 64) :: charsOfBytes rest

/-- **The text that bytes encode.** -/
def ofBytes (b : List UInt8) : String :=
  String.ofList (charsOfBytes b)

end SchemaRules.Text
