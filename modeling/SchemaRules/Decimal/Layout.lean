import SchemaRules.Decimal.Shortest

/-!
# The text of a double

The shortest digits of a double are laid out in one of three ways.

* `Layout.plain`: always positional, and a whole number has no point.
* `Layout.message`: positional from `1e-4` up to below `1e16`, always with a point
  or an exponent.
* `Layout.document`: positional from `1e-5` up to below `1e16`, always with a point
  or an exponent.
-/

namespace SchemaRules.Decimal

/-- **How a double is written.** `positional` bounds the place of the point after which no exponent
is used, and `wholePoint` tells whether a whole number ends in `.0`. -/
structure Layout where
  positional : Option (Int × Int)
  wholePoint : Bool

namespace Layout

/-- Positional notation for every size. -/
def plain : Layout := ⟨none, false⟩

/-- The layout of numbers in messages. -/
def message : Layout := ⟨some (-3, 16), true⟩

/-- The layout of numbers in documents. -/
def document : Layout := ⟨some (-4, 16), true⟩

/-- Whether a number whose point stands at `point` is written without an exponent. -/
def isPositional (l : Layout) (point : Int) : Bool :=
  match l.positional with
  | none => true
  | some (low, high) => low ≤ point && point ≤ high

/-- Digits with a point after the first `point` of them, filled up with zeros on either side. -/
def place (l : Layout) (digits : List Char) (point : Int) : List Char :=
  if point ≤ 0 then ['0', '.'] ++ List.replicate (-point).toNat '0' ++ digits
  else
    let whole := digits.take point.toNat
    let fraction := digits.drop point.toNat
    if fraction.isEmpty then
      whole ++ List.replicate (point.toNat - digits.length) '0' ++
        (if l.wholePoint then ['.', '0'] else [])
    else whole ++ ['.'] ++ fraction

/-- Digits with the point after the first one and an exponent. -/
def withExponent (digits : List Char) (point : Int) : List Char :=
  let lead := digits.take 1
  let fraction := digits.drop 1
  lead ++ (if fraction.isEmpty then [] else '.' :: fraction) ++ ['e'] ++
    (toString (point - 1)).toList

/-- The size of a finite double. -/
def size (l : Layout) (x : Float) : List Char :=
  let d := Scientific.ofFloat x
  let digits := digitsOf d.coefficient
  let point := digits.length + d.exponent
  if d.coefficient = 0 then l.place ['0'] 1
  else if l.isPositional point then l.place digits point
  else withExponent digits point

/-- **The text of a double.** Only what is not a number has no sign. -/
def write (l : Layout) (x : Float) : String :=
  if x.isNaN then "NaN"
  else
    let sign := if (partsOf x).negative then ['-'] else []
    String.ofList (sign ++ if x.isInf then "inf".toList else l.size x)

end Layout

end SchemaRules.Decimal
