import SchemaRules.Decimal.Reader
import SchemaRules.Json.Basic
import SchemaRules.Yaml.Token.Basic

/-!
# What scalars mean

A plain scalar may be null, a truth value or a number; what is none of these is text, and so
is every scalar in quotes or in a block. A tag of the standard can ask for a kind.

* Whole numbers may be written with a radix of 16, 8 or 2. Decimal digits behind a leading
  zero are text.
* `resolvePlain` refuses whole numbers that need more than 64 bits and not more than 128; what
  is larger is a double.
-/

namespace SchemaRules.Yaml

/-- **What a scalar means.** -/
inductive Scalar where
  | null
  | bool (b : Bool)
  | int (n : Int)
  | double (x : Float)
  | text (s : String)
  deriving Inhabited

/-- The words for null. -/
def isNullWord (s : String) : Bool :=
  ["null", "Null", "NULL", "~"].contains s

/-- The truth value that a word means. -/
def readBool? (s : String) : Option Bool :=
  if ["true", "True", "TRUE"].contains s then some true
  else if ["false", "False", "FALSE"].contains s then some false
  else none

/-- Digits behind a leading zero. -/
def isZeroLed (cs : List Char) : Bool :=
  match (Decimal.takeSign cs).2 with
  | '0' :: c :: rest => (c :: rest).all Decimal.isDigit
  | _ => false

/-- The number behind a mark of its radix. -/
def readRadix? : List Char → Option Nat
  | '0' :: 'x' :: digits => Decimal.readNat? 16 digits
  | '0' :: 'o' :: digits => Decimal.readNat? 8 digits
  | '0' :: 'b' :: digits => Decimal.readNat? 2 digits
  | _ => none

/-- The size of a whole number: with a radix, or in decimal digits without a leading zero. -/
def readSize? (cs : List Char) : Option Nat :=
  (readRadix? cs).or (if isZeroLed cs then none else Decimal.readNat? 10 cs)

/-- **The whole number that a scalar writes**, of any size. -/
def readWhole? : List Char → Option Int
  | '-' :: cs => (readSize? cs).map fun n => -(n : Int)
  | '+' :: cs => (readSize? cs).map Int.ofNat
  | cs => (readSize? cs).map Int.ofNat

/-- A whole number of 64 bits, with a sign if it is negative. -/
def isWord (n : Int) : Bool :=
  -(Nat.pow 2 63 : Nat) ≤ n && n < (Nat.pow 2 64 : Nat)

/-- A whole number of 128 bits, with a sign if it is negative. -/
def isDoubleWord (n : Int) : Bool :=
  -(Nat.pow 2 127 : Nat) ≤ n && n < (Nat.pow 2 128 : Nat)

/-- The double that a scalar writes. Only the words of YAML mean what is not finite. -/
def readDouble? (s : String) : Option Float :=
  let unsigned := if s.startsWith "+" then (s.drop 1).toString else s
  if [".inf", ".Inf", ".INF"].contains unsigned then some (1.0 / 0.0)
  else if ["-.inf", "-.Inf", "-.INF"].contains s then some (-1.0 / 0.0)
  else if [".nan", ".NaN", ".NAN"].contains s then some (0.0 / 0.0)
  else
    match s.toList with
    | '+' :: '+' :: _ => none
    | '+' :: '-' :: _ => none
    | cs => (Decimal.readFloat? cs).filter Float.isFinite

/-- The whole number that a scalar writes, or none; refused where 64 bits are too few for it. -/
def wholeScalar? (s : String) : Option (Option Int) :=
  match readWhole? s.toList with
  | some n => if isWord n then some (some n) else if isDoubleWord n then none else some none
  | none => some none

/-- **What a plain scalar means.** -/
def resolvePlain (s : String) : Option Scalar :=
  if s.isEmpty || isNullWord s then some .null
  else
    match readBool? s with
    | some b => some (.bool b)
    | none => do
      match ← wholeScalar? s with
      | some n => return .int n
      | none =>
        if isZeroLed s.toList then return .text s
        match readDouble? s with
        | some x => return .double x
        | none => return .text s

/-- What a scalar means to which no tag applies. -/
def resolveStyled (style : Style) (s : String) : Option Scalar :=
  if style = .plain then resolvePlain s else some (.text s)

/-- A tag of the standard. -/
def standardTag (name : String) : String := "tag:yaml.org,2002:" ++ name

/-- **What a scalar means** under a tag that is no local one. -/
def resolveTagged (tag : Option String) (style : Style) (s : String) : Option Scalar :=
  match tag with
  | none => resolveStyled style s
  | some tag =>
    if tag = standardTag "bool" then (readBool? s).map .bool
    else if tag = standardTag "int" then do return .int (← ← wholeScalar? s)
    else if tag = standardTag "float" then (readDouble? s).map .double
    else if tag = standardTag "null" then (if isNullWord s then some .null else none)
    else some (.text s)

/-- The name of a local tag. -/
def localTag? : Option String → Option String
  | none => none
  | some tag =>
    match tag.toList with
    | '!' :: name => some (String.ofList name)
    | _ => none

end SchemaRules.Yaml
