import SchemaRules.Decimal.Shortest

/-!
# Reading numbers

* `readFloat?` reads a decimal with an optional sign, point and exponent, or one of
  the words for infinity and for what is not a number.
* `readNat?` and `readInt?` read whole numbers of a given radix.
-/

namespace SchemaRules.Decimal

/-- A decimal digit. -/
def isDigit (c : Char) : Bool :=
  '0' ≤ c && c ≤ '9'

/-- The value of a digit of radix 36. -/
def digitValue? (c : Char) : Option Nat :=
  if isDigit c then some (c.toNat - '0'.toNat)
  else if 'a' ≤ c && c ≤ 'z' then some (c.toNat - 'a'.toNat + 10)
  else if 'A' ≤ c && c ≤ 'Z' then some (c.toNat - 'A'.toNat + 10)
  else none

/-- The number that digits write, one digit after the other; none when a character is no digit of
the radix. -/
def readDigits? (radix : Nat) (acc : Nat) : List Char → Option Nat
  | [] => some acc
  | c :: cs =>
    match digitValue? c with
    | some d => if d < radix then readDigits? radix (acc * radix + d) cs else none
    | none => none

/-- The number that one digit or more write. -/
def readNat? (radix : Nat) (cs : List Char) : Option Nat :=
  if cs.isEmpty then none else readDigits? radix 0 cs

/-- The number that digits behind an optional sign write. -/
def readInt? (radix : Nat) : List Char → Option Int
  | '-' :: cs => (readNat? radix cs).map fun n => -(n : Int)
  | '+' :: cs => (readNat? radix cs).map Int.ofNat
  | cs => (readNat? radix cs).map Int.ofNat

/-- A sign in front, and whether it was a minus. -/
def takeSign : List Char → Bool × List Char
  | '-' :: cs => (true, cs)
  | '+' :: cs => (false, cs)
  | cs => (false, cs)

/-- The value of a run of decimal digits. -/
def digitsValue (cs : List Char) : Nat :=
  cs.foldl (fun n c => n * 10 + (c.toNat - '0'.toNat)) 0

/-- A digit run, and what follows it. -/
def takeDigits (cs : List Char) : List Char × List Char :=
  (cs.takeWhile isDigit, cs.dropWhile isDigit)

/-- An exponent with its letter, if the text begins with one, and what follows it. -/
def takeExponent (cs : List Char) : Option (Int × List Char) :=
  match cs with
  | e :: rest =>
    if e = 'e' || e = 'E' then
      let (negative, rest) := takeSign rest
      let (digits, rest) := takeDigits rest
      if digits.isEmpty then none
      else some (if negative then -(digitsValue digits : Int) else digitsValue digits, rest)
    else none
  | [] => none

/-- **An unsigned decimal** in front of a text: digits with an optional point, one digit at least,
and an optional exponent, with what follows it. -/
def takeDecimal? (cs : List Char) : Option (Scientific × List Char) :=
  let (whole, rest) := takeDigits cs
  let (fraction, rest) :=
    match rest with
    | '.' :: more => takeDigits more
    | _ => ([], rest)
  if whole.isEmpty && fraction.isEmpty then none
  else
    let coefficient := digitsValue (whole ++ fraction)
    let shift : Int := -(fraction.length : Int)
    match takeExponent rest with
    | some (e, rest) => some (⟨coefficient, shift + e⟩, rest)
    | none => some (⟨coefficient, shift⟩, rest)

/-- A text in lower case, ASCII letters only. -/
def lowerAscii (cs : List Char) : List Char :=
  cs.map Char.toLower

/-- **A double** in full: a signed decimal, or a signed word. -/
def readFloat? (cs : List Char) : Option Float :=
  let (negative, body) := takeSign cs
  let signed (x : Float) : Float := if negative then -x else x
  let word := String.ofList (lowerAscii body)
  if word = "inf" || word = "infinity" then some (signed (1.0 / 0.0))
  else if word = "nan" then some (0.0 / 0.0)
  else
    match takeDecimal? body with
    | some (d, []) => some (d.toFloat negative)
    | _ => none

end SchemaRules.Decimal
