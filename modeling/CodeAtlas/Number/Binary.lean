/-!
# Exact value of a double

A finite double is an integer times a power of two. `Dyadic.ofFloat` reads both off the bits, and
the exact value is then a quotient of natural numbers on which rounding can be computed.
-/

namespace CodeAtlas

/-- The non-negative value `mantissa * 2 ^ exponent`. -/
structure Dyadic where
  /-- The integer part of the product. -/
  mantissa : Nat
  /-- The exponent of two. -/
  exponent : Int
  deriving DecidableEq, Repr

namespace Dyadic

/-- The leading bit of the mantissa of a normal double, `2 ^ 52`, which its bits leave out. -/
def leadingBit : Nat := 4503599627370496

/-- The magnitude of a finite double. -/
def ofFloat (value : Float) : Dyadic :=
  let bits : Nat := value.toBits.toNat
  let fraction : Nat := bits % leadingBit
  let scale : Nat := bits / leadingBit % 2048
  if scale = 0 then
    ⟨fraction, -1074⟩
  else
    ⟨fraction + leadingBit, (scale : Int) - 1075⟩

/-- The numerator of the value in lowest power-of-two terms. -/
def numerator (value : Dyadic) : Nat :=
  value.mantissa * Nat.pow 2 value.exponent.toNat

/-- The denominator that belongs to `numerator`. -/
def denominator (value : Dyadic) : Nat :=
  Nat.pow 2 (-value.exponent).toNat

end Dyadic

end CodeAtlas
