import CodeAtlas.Number.Shortest

/-!
# Scalars

Weights, strengths and ratios are computed over any type with the four operations that the analysis
uses. Programs run it over `Float`; reasoning may read the same definitions over an exact field.
-/

namespace CodeAtlas

/-- The arithmetic of weights, strengths and ratios. -/
class Scalar (α : Type) where
  /-- A count as a scalar. -/
  ofNat : Nat → α
  /-- An integer as a scalar. -/
  ofInt : Int → α
  /-- The sum of two scalars. -/
  add : α → α → α
  /-- The product of two scalars. -/
  mul : α → α → α
  /-- The quotient of two scalars. -/
  div : α → α → α
  /-- The strict order of scalars, as a test. -/
  lt : α → α → Bool
  /-- Equality of scalars, as a test. -/
  eq : α → α → Bool
  /-- The text that stands for a scalar in digests. -/
  text : α → String

namespace Scalar

variable {α : Type} [Scalar α]

/-- Zero as a scalar. -/
def zero : α := ofNat 0

/-- One as a scalar. -/
def one : α := ofNat 1

/-- The larger of two scalars, the first one when they are equal. -/
def max (left right : α) : α :=
  if lt left right then right else left

/-- The smaller of two scalars, the first one when they are equal. -/
def min (left right : α) : α :=
  if lt right left then right else left

/-- The quotient of two counts, zero when the second is zero. -/
def ratio (part whole : Nat) : α :=
  if whole = 0 then zero else div (ofNat part) (ofNat whole)

/-- A scalar held between zero and one. -/
def clamp (value : α) : α :=
  min one (max zero value)

/-- The sum of a list from left to right. -/
def sum (values : List α) : α :=
  values.foldl add zero

/-- The sum of a list divided by its length, zero for the empty list. -/
def average (values : List α) : α :=
  if values.isEmpty then zero else div (sum values) (ofNat values.length)

end Scalar

instance : Scalar Float where
  ofNat := Float.ofNat
  ofInt := Float.ofInt
  add := (· + ·)
  mul := (· * ·)
  div := (· / ·)
  lt left right := decide (left < right)
  eq := (· == ·)
  text := Number.text

end CodeAtlas
