/-!
# Sixteen-bit text units

Lengths, offsets and the order of texts count sixteen-bit units: a character below `U+10000` is one
unit, any other is a pair of surrogates. The order of texts is the lexicographic order of their
units, which differs from the order of characters above the surrogates.
-/

namespace CodeAtlas
namespace Text

/-- The sixteen-bit units of one character. -/
def charUnits (char : Char) : List Nat :=
  let code := char.toNat
  if code < 0x10000 then
    [code]
  else
    [0xD800 + (code - 0x10000) / 0x400, 0xDC00 + (code - 0x10000) % 0x400]

/-- The sixteen-bit units of a text. -/
def units (text : String) : List Nat :=
  text.toList.flatMap charUnits

/-- The number of sixteen-bit units of a text. -/
def unitLength (text : String) : Nat :=
  (units text).length

/-- Lexicographic comparison of unit lists, a proper beginning being smaller. -/
def compareUnits : List Nat → List Nat → Ordering
  | [], [] => .eq
  | [], _ :: _ => .lt
  | _ :: _, [] => .gt
  | left :: lefts, right :: rights =>
    match compare left right with
    | .eq => compareUnits lefts rights
    | order => order

/-- The order of texts by their sixteen-bit units. -/
def order (left right : String) : Ordering :=
  compareUnits (units left) (units right)

/-- The strict order of texts. -/
def before (left right : String) : Bool :=
  order left right == .lt

/-- The weak order of texts, the one lists are sorted by. -/
def notAfter (left right : String) : Bool :=
  order left right != .gt

/-- Sorts texts by their units. -/
def sort (texts : List String) : List String :=
  texts.mergeSort notAfter

/-- Sorts values by a text key, keeping the given order of values with one key. -/
def sortBy {α : Type} (key : α → String) (values : List α) : List α :=
  values.mergeSort fun left right => notAfter (key left) (key right)

/-- Reads units back into characters; a surrogate without its partner becomes `U+FFFD`. -/
def ofUnits : List Nat → List Char
  | [] => []
  | unit :: rest =>
    if 0xD800 ≤ unit ∧ unit ≤ 0xDBFF then
      match rest with
      | low :: tail =>
        if 0xDC00 ≤ low ∧ low ≤ 0xDFFF then
          Char.ofNat (0x10000 + (unit - 0xD800) * 0x400 + (low - 0xDC00)) :: ofUnits tail
        else
          '\uFFFD' :: ofUnits (low :: tail)
      | [] => ['\uFFFD']
    else if 0xDC00 ≤ unit ∧ unit ≤ 0xDFFF then
      '\uFFFD' :: ofUnits rest
    else
      Char.ofNat unit :: ofUnits rest

end Text
end CodeAtlas
