/-!
# Shortest decimals

A double is `m · 2 ^ q` for whole numbers `m` and `q` read off its bits, and the
reals that round to it form an interval around it, with its ends when `m` is even.

* `Scientific.ofFloat` is the decimal with the fewest digits in that interval; of
  two with as many digits it is the nearer one, of two equally near the even one.
* `Scientific.toFloat` is the double nearest to a decimal.
-/

namespace SchemaRules.Decimal

/-- The decimal `coefficient · 10 ^ exponent`. -/
structure Scientific where
  coefficient : Nat
  exponent : Int
  deriving DecidableEq

/-- The decimal digits of a number. -/
def digitsOf (n : Nat) : List Char :=
  Nat.toDigits 10 n

/-- **A finite double taken apart.** Its size is `mantissa · 2 ^ exponent`; `narrow` tells
that the gap below it is half the gap above. -/
structure Parts where
  negative : Bool
  mantissa : Nat
  exponent : Int
  narrow : Bool
  deriving DecidableEq

/-- The sign, mantissa and exponent that the bits of a double encode. -/
def partsOf (x : Float) : Parts :=
  let bits := x.toBits.toNat
  let negative := bits / Nat.pow 2 63 == 1
  let field : Nat := bits / Nat.pow 2 52 % Nat.pow 2 11
  let fraction : Nat := bits % Nat.pow 2 52
  if field = 0 then ⟨negative, fraction, -1074, false⟩
  else ⟨negative, fraction + Nat.pow 2 52, (field : Int) - 1075, fraction = 0 && field > 1⟩

/-- The interval of a size `value / unit`, as numerators over the same `unit`. -/
structure Interval where
  unit : Nat
  low : Nat
  value : Nat
  high : Nat
  closed : Bool

/-- The interval of the reals that round to `m · 2 ^ q`, over a fourth of the unit. -/
def intervalOf (p : Parts) : Interval :=
  let scale := Nat.pow 2 p.exponent.toNat
  { unit := 4 * Nat.pow 2 (-p.exponent).toNat
    low := (4 * p.mantissa - (if p.narrow then 1 else 2)) * scale
    value := 4 * p.mantissa * scale
    high := (4 * p.mantissa + 2) * scale
    closed := p.mantissa % 2 = 0 }

/-- The exponent `k` with `10 ^ k ≤ value < 10 ^ (k + 1)`, guessed from the binary exponent and
then put right by one step either way. -/
def leadingExponent (p : Parts) (i : Interval) : Int :=
  let guess := Int.fdiv (((Nat.log2 p.mantissa : Int) + p.exponent) * 30103) 100000
  let reaches (k : Int) : Bool :=
    decide (i.unit * Nat.pow 10 k.toNat ≤ i.value * Nat.pow 10 (-k).toNat)
  if reaches (guess + 1) then guess + 1
  else if reaches guess then guess
  else guess - 1

/-- The point of the grid of step `10 ^ t` inside the interval that is nearest to the value. -/
def onGrid? (i : Interval) (t : Int) : Option Nat :=
  let step := i.unit * Nat.pow 10 t.toNat
  let wide := Nat.pow 10 (-t).toNat
  let inside (g : Nat) : Bool :=
    if i.closed then decide (i.low * wide ≤ g * step) && decide (g * step ≤ i.high * wide)
    else decide (i.low * wide < g * step) && decide (g * step < i.high * wide)
  let below := i.value * wide / step
  let above := below + 1
  let toBelow := i.value * wide - below * step
  let toAbove := above * step - i.value * wide
  match inside below, inside above with
  | true, true =>
    if toBelow < toAbove || (toBelow = toAbove && below % 2 = 0) then some below else some above
  | true, false => some below
  | false, true => some above
  | false, false => none

/-- A decimal without the zeros at the end of its coefficient; `fuel` bounds their number. -/
def stripZeros : Nat → Scientific → Scientific
  | 0, d => d
  | fuel + 1, d =>
    if d.coefficient ≠ 0 ∧ d.coefficient % 10 = 0 then
      stripZeros fuel ⟨d.coefficient / 10, d.exponent + 1⟩
    else d

/-- The first grid with a point in the interval, from the one of one digit to that of
seventeen. -/
def searchGrids (i : Interval) (k : Int) : List Nat → Scientific
  | [] => ⟨0, 0⟩
  | n :: rest =>
    match onGrid? i (k + 1 - n) with
    | some g => stripZeros 20 ⟨g, k + 1 - n⟩
    | none => searchGrids i k rest

/-- **The shortest decimal** that rounds to the size of a finite double. -/
def Scientific.ofFloat (x : Float) : Scientific :=
  let p := partsOf x
  if p.mantissa = 0 then ⟨0, 0⟩
  else
    let i := intervalOf p
    searchGrids i (leadingExponent p i) ((List.range 17).map (· + 1))

/-- **The double nearest to a decimal**; beyond the range of doubles it is infinite or zero. -/
def Scientific.toFloat (negative : Bool) (d : Scientific) : Float :=
  let size :=
    if d.coefficient = 0 then 0.0
    else
      let point := (digitsOf d.coefficient).length + d.exponent
      if point > 310 then 1.0 / 0.0
      else if point < -330 then 0.0
      else Float.ofScientific d.coefficient (decide (d.exponent < 0)) d.exponent.natAbs
  if negative then -size else size

end SchemaRules.Decimal
