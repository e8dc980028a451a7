import SchemaRules.Decimal.Shortest

/-!
# Exact sizes

A whole number and a finite double both are `mantissa · 2 ^ exponent` for a whole mantissa, and
so they are compared without rounding.
-/

namespace SchemaRules.Decimal

/-- **The number `mantissa · 2 ^ exponent`.** -/
structure Exact where
  mantissa : Int
  exponent : Int
  deriving DecidableEq

namespace Exact

/-- A whole number. -/
def ofInt (n : Int) : Exact := ⟨n, 0⟩

/-- A finite double. -/
def ofFloat (x : Float) : Exact :=
  let p := partsOf x
  ⟨if p.negative then -(p.mantissa : Int) else p.mantissa, p.exponent⟩

/-- The mantissa at a lower exponent. -/
def mantissaAt (a : Exact) (exponent : Int) : Int :=
  a.mantissa * (Nat.pow 2 (a.exponent - exponent).toNat : Nat)

/-- **The order of two sizes.** -/
def compare (a b : Exact) : Ordering :=
  let e := min a.exponent b.exponent
  Ord.compare (a.mantissaAt e) (b.mantissaAt e)

/-- Whether a size is a whole number. -/
def isWhole (a : Exact) : Bool :=
  0 ≤ a.exponent || a.mantissa % (Nat.pow 2 (-a.exponent).toNat : Nat) == 0

/-- Whether a size is a whole multiple of another one, which is not zero. -/
def isMultipleOf (a b : Exact) : Bool :=
  let e := min a.exponent b.exponent
  a.mantissaAt e % b.mantissaAt e == 0

end Exact

end SchemaRules.Decimal
