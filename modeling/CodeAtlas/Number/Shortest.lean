import CodeAtlas.Number.Binary
import CodeAtlas.Text.Split

/-!
# Shortest decimal of a double

The fewest decimal digits that read back to the same double, the nearest such decimal if there are
two, and the layout of number texts: positional between `10 ^ -7` and `10 ^ 21`, with an exponent
outside.
-/

namespace CodeAtlas

/-- The positive decimal `digits * 10 ^ exponent`. -/
structure Decimal where
  /-- The digits as one number. -/
  digits : Nat
  /-- The exponent of ten. -/
  exponent : Int
  deriving DecidableEq, Repr

namespace Decimal

/-- The interval of values that round to a double, in units of a quarter of its last place. -/
structure Rounding where
  /-- The lower end. -/
  low : Nat
  /-- The value itself. -/
  middle : Nat
  /-- The upper end. -/
  high : Nat
  /-- Whether the ends round to the double as well. -/
  closed : Bool
  /-- The exponent of two of one unit. -/
  exponent : Int

/-- The interval of values that round to a positive double. Below a power of two the gap is half as
wide; a tie goes to the even mantissa. -/
def roundingOf (value : Dyadic) : Rounding :=
  let half := value.mantissa = Dyadic.leadingBit ∧ value.exponent > -1074
  { low := 4 * value.mantissa - (if half then 1 else 2)
    middle := 4 * value.mantissa
    high := 4 * value.mantissa + 2
    closed := value.mantissa % 2 = 0
    exponent := value.exponent - 2 }

/-- Compares `left * 2 ^ binary` with `right * 10 ^ decimal`. -/
def compareScaled (left : Nat) (binary : Int) (right : Nat) (decimal : Int) : Ordering :=
  compare (left * Nat.pow 2 binary.toNat * Nat.pow 10 (-decimal).toNat)
    (right * Nat.pow 10 decimal.toNat * Nat.pow 2 (-binary).toNat)

/-- Whether a decimal lies in the interval. -/
def Rounding.holds (interval : Rounding) (decimal : Decimal) : Bool :=
  let low := compareScaled interval.low interval.exponent decimal.digits decimal.exponent
  let high := compareScaled interval.high interval.exponent decimal.digits decimal.exponent
  (low == .lt || interval.closed && low == .eq) && (high == .gt || interval.closed && high == .eq)

/-- The two neighbours of the value on the grid of multiples of `10 ^ exponent`. -/
def neighbours (interval : Rounding) (exponent : Int) : Decimal × Decimal :=
  let numerator :=
    interval.middle * Nat.pow 2 interval.exponent.toNat * Nat.pow 10 (-exponent).toNat
  let denominator := Nat.pow 2 (-interval.exponent).toNat * Nat.pow 10 exponent.toNat
  let below := numerator / denominator
  (⟨below, exponent⟩, ⟨below + 1, exponent⟩)

/-- The nearer of the two neighbours, the even one at equal distance. -/
def nearer (interval : Rounding) (below above : Decimal) : Decimal :=
  match compareScaled (2 * interval.middle) interval.exponent
      (below.digits + above.digits) below.exponent with
  | .lt => below
  | .gt => above
  | .eq => if below.digits % 2 = 0 then below else above

/-- The neighbour on one grid that reads back, if any. -/
def onGrid? (interval : Rounding) (exponent : Int) : Option Decimal :=
  let (below, above) := neighbours interval exponent
  match interval.holds below, interval.holds above with
  | true, true => some (nearer interval below above)
  | true, false => some below
  | false, true => some above
  | false, false => none

/-- Tries finer and finer grids. -/
def refine (interval : Rounding) : Nat → Int → Decimal
  | 0, exponent => (neighbours interval exponent).1
  | steps + 1, exponent =>
    match onGrid? interval exponent with
    | some decimal => decimal
    | none => refine interval steps (exponent - 1)

/-- The greatest `exponent` with `10 ^ exponent` not above the value, found by descending from an
upper estimate. -/
def leading (interval : Rounding) : Nat → Int → Int
  | 0, exponent => exponent
  | steps + 1, exponent =>
    if compareScaled interval.middle interval.exponent 1 exponent == .lt then
      leading interval steps (exponent - 1)
    else
      exponent

/-- Drops the zeros at the end of the digits. -/
def strip (decimal : Decimal) : Nat → Decimal
  | 0 => decimal
  | steps + 1 =>
    if decimal.digits % 10 = 0 ∧ decimal.digits ≠ 0 then
      strip ⟨decimal.digits / 10, decimal.exponent + 1⟩ steps
    else
      decimal

/-- The shortest decimal that reads back to a positive double. -/
def shortest (value : Dyadic) : Decimal :=
  let interval := roundingOf value
  let estimate := ((value.exponent + Nat.log2 value.mantissa) * 30103) / 100000 + 1
  (refine interval 20 (leading interval 4 estimate)).strip 20

end Decimal

namespace Number

/-- Where positional notation ends. -/
structure Layout where
  /-- The least number of places before the point that is still positional, as a lower bound. -/
  smallest : Int
  /-- The greatest number of places before the point that is still positional. -/
  greatest : Int

/-- Number texts are positional from `0.000001` up to twenty-one places before the point. -/
def layout : Layout := ⟨-5, 21⟩

/-- Lays out the digits of a positive decimal. -/
def Layout.render (style : Layout) (decimal : Decimal) : String :=
  let digits := (toString decimal.digits).toList
  let count : Int := digits.length
  let point := count + decimal.exponent
  if count ≤ point ∧ point ≤ style.greatest then
    String.ofList digits ++ Text.replicate (point - count).toNat '0'
  else if 0 < point ∧ point ≤ style.greatest then
    String.ofList (digits.take point.toNat) ++ "." ++ String.ofList (digits.drop point.toNat)
  else if style.smallest ≤ point ∧ point ≤ 0 then
    "0." ++ Text.replicate (-point).toNat '0' ++ String.ofList digits
  else
    let power := point - 1
    let sign := if power < 0 then "-" else "+"
    let fraction := if digits.length = 1 then "" else "." ++ String.ofList (digits.drop 1)
    String.ofList (digits.take 1) ++ fraction ++ "e" ++ sign ++ toString power.natAbs

/-- The text of a number: both zeros read `0`. -/
def text (value : Float) : String :=
  if value.isNaN then
    "NaN"
  else if value == 0 then
    "0"
  else
    let sign := if value < 0 then "-" else ""
    if value.isInf then
      sign ++ "Infinity"
    else
      sign ++ layout.render (Decimal.shortest (Dyadic.ofFloat value))

/-- The text of a number with a fixed count of places. The exact value is rounded, a half away from
zero; from `10 ^ 21` on the text is that of `text`. -/
def fixed (places : Nat) (value : Float) : String :=
  if value.isNaN || value.isInf || !(value.abs < 1e21) then
    text value
  else
    let exact := Dyadic.ofFloat value
    let scaled := exact.numerator * Nat.pow 10 places
    let rounded := (2 * scaled + exact.denominator) / (2 * exact.denominator)
    let sign := if value < 0 then "-" else ""
    let digits := toString rounded
    let padded := Text.replicate (places + 1 - digits.length) '0' ++ digits
    let chars := padded.toList
    let whole := chars.length - places
    if places = 0 then
      sign ++ padded
    else
      sign ++ String.ofList (chars.take whole) ++ "." ++ String.ofList (chars.drop whole)

/-- The integer nearest to zero of a number that is an integer of at most fifty-three bits. -/
def toNat (value : Float) : Nat :=
  if value.isNaN || value ≤ 0 then
    0
  else
    let exact := Dyadic.ofFloat value
    exact.numerator / exact.denominator

/-- Whether a number is an integer: nothing is left over when its exact value is divided out. -/
def isWhole (value : Float) : Bool :=
  let exact := Dyadic.ofFloat value
  !value.isNaN && !value.isInf && exact.numerator % exact.denominator == 0

end Number
end CodeAtlas
