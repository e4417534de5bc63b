import CodeAtlas.Json.Basic

/-!
# Reading structured values

`Json.parse?` reads a text that holds one value and blanks around it. A name that occurs twice in an
object keeps its first place and its last value. Decimal numbers are rounded to the nearest double.
-/

namespace CodeAtlas
namespace Json

/-- Skips the blanks that may stand between tokens. -/
def skipBlanks : List Char → List Char
  | [] => []
  | char :: rest =>
    if char = ' ' ∨ char = '\t' ∨ char = '\n' ∨ char = '\r' then skipBlanks rest else char :: rest

/-- The value of a hexadecimal digit. -/
def hexValue? (char : Char) : Option Nat :=
  let code := char.toNat
  if 48 ≤ code ∧ code ≤ 57 then some (code - 48)
  else if 65 ≤ code ∧ code ≤ 70 then some (code - 55)
  else if 97 ≤ code ∧ code ≤ 102 then some (code - 87)
  else none

/-- Four hexadecimal digits as a text unit. -/
def hexUnit? (first second third fourth : Char) : Option Nat := do
  let first ← hexValue? first
  let second ← hexValue? second
  let third ← hexValue? third
  let fourth ← hexValue? fourth
  pure (((first * 16 + second) * 16 + third) * 16 + fourth)

/-- The character a one-letter escape stands for. -/
def escaped? (char : Char) : Option Char :=
  if char = '"' ∨ char = '\\' ∨ char = '/' then some char
  else if char = 'b' then some (Char.ofNat 8)
  else if char = 'f' then some (Char.ofNat 12)
  else if char = 'n' then some '\n'
  else if char = 'r' then some '\r'
  else if char = 't' then some '\t'
  else none

/-- Reads the rest of a text after its opening quote as text units, last first. -/
def readUnits : List Nat → List Char → Option (List Nat × List Char)
  | _, [] => none
  | units, '\\' :: 'u' :: first :: second :: third :: fourth :: rest =>
    match hexUnit? first second third fourth with
    | some unit => readUnits (unit :: units) rest
    | none => none
  | units, '\\' :: char :: rest =>
    match escaped? char with
    | some char => readUnits (char.toNat :: units) rest
    | none => none
  | units, char :: rest =>
    if char = '"' then some (units.reverse, rest)
    else if char.toNat < 32 then none
    else readUnits ((Text.charUnits char).reverse ++ units) rest

/-- Reads the rest of a text after its opening quote. -/
def readText (chars : List Char) : Option (String × List Char) :=
  (readUnits [] chars).map fun (units, rest) => (String.ofList (Text.ofUnits units), rest)

/-- The digits at the front. -/
def readDigits (chars : List Char) : List Char × List Char :=
  (chars.takeWhile Char.isDigit, chars.dropWhile Char.isDigit)

/-- The number written by decimal digits. -/
def digitsValue (digits : List Char) : Nat :=
  digits.foldl (fun value digit => value * 10 + (digit.toNat - 48)) 0

/-- The digits before the point: zero stands alone. -/
def readWhole (chars : List Char) : Option (List Char × List Char) :=
  match chars with
  | '0' :: rest => some (['0'], rest)
  | _ =>
    let (digits, rest) := readDigits chars
    if digits.isEmpty then none else some (digits, rest)

/-- The digits after a point, if there is one. -/
def readFraction (chars : List Char) : Option (List Char × List Char) :=
  match chars with
  | '.' :: rest =>
    let (digits, rest) := readDigits rest
    if digits.isEmpty then none else some (digits, rest)
  | _ => some ([], chars)

/-- The exponent of ten, if there is one. -/
def readExponent (chars : List Char) : Option (Int × List Char) :=
  let digits (negative : Bool) (chars : List Char) : Option (Int × List Char) :=
    let (digits, rest) := readDigits chars
    if digits.isEmpty then none
    else some (if negative then -(digitsValue digits : Int) else digitsValue digits, rest)
  match chars with
  | char :: rest =>
    if char = 'e' ∨ char = 'E' then
      match rest with
      | '+' :: rest => digits false rest
      | '-' :: rest => digits true rest
      | _ => digits false rest
    else
      some (0, chars)
  | [] => some (0, [])

/-- The double nearest to `digits * 10 ^ exponent`. Exponents far outside the range of doubles are
cut, which does not change the result. -/
def nearestDouble (digits : Nat) (exponent : Int) : Float :=
  if digits = 0 then
    0
  else
    let count : Int := (Nat.toDigits 10 digits).length
    let bounded := max (-(count + 400)) (min exponent 400)
    Float.ofScientific digits (decide (bounded < 0)) bounded.natAbs

/-- Reads a number. -/
def readNumber (chars : List Char) : Option (Float × List Char) := do
  let (negative, chars) := match chars with
    | '-' :: rest => (true, rest)
    | _ => (false, chars)
  let (whole, chars) ← readWhole chars
  let (fraction, chars) ← readFraction chars
  let (exponent, chars) ← readExponent chars
  let value := nearestDouble (digitsValue (whole ++ fraction)) (exponent - fraction.length)
  pure (if negative then -value else value, chars)

/-- Reads a fixed word. -/
def readWord (word : List Char) (value : Json) : List Char → Option (Json × List Char)
  | chars => if chars.take word.length = word then some (value, chars.drop word.length) else none

mutual

/-- Reads a value; the fuel bounds the nesting and the number of parts. -/
def readValue : Nat → List Char → Option (Json × List Char)
  | 0, _ => none
  | fuel + 1, chars =>
    match skipBlanks chars with
    | [] => none
    | '"' :: rest => (readText rest).map fun (text, rest) => (str text, rest)
    | '[' :: rest =>
      match skipBlanks rest with
      | ']' :: rest => some (arr [], rest)
      | rest => (readItems fuel [] rest).map fun (items, rest) => (arr items, rest)
    | '\x7b' :: rest =>
      match skipBlanks rest with
      | '\x7d' :: rest => some (obj [], rest)
      | rest => (readMembers fuel [] rest).map fun (members, rest) => (obj members, rest)
    | 'n' :: rest => readWord ['n', 'u', 'l', 'l'] null ('n' :: rest)
    | 't' :: rest => readWord ['t', 'r', 'u', 'e'] (bool true) ('t' :: rest)
    | 'f' :: rest => readWord ['f', 'a', 'l', 's', 'e'] (bool false) ('f' :: rest)
    | rest => (readNumber rest).map fun (value, rest) => (num value, rest)

/-- Reads the items of a list up to its closing bracket. -/
def readItems : Nat → List Json → List Char → Option (List Json × List Char)
  | 0, _, _ => none
  | fuel + 1, items, chars =>
    match readValue fuel chars with
    | none => none
    | some (item, rest) =>
      match skipBlanks rest with
      | ',' :: rest => readItems fuel (item :: items) rest
      | ']' :: rest => some ((item :: items).reverse, rest)
      | _ => none

/-- Reads the members of an object up to its closing brace. -/
def readMembers : Nat → List (String × Json) → List Char →
    Option (List (String × Json) × List Char)
  | 0, _, _ => none
  | fuel + 1, members, chars =>
    match skipBlanks chars with
    | '"' :: rest =>
      match readText rest with
      | none => none
      | some (name, rest) =>
        match skipBlanks rest with
        | ':' :: rest =>
          match readValue fuel rest with
          | none => none
          | some (value, rest) =>
            let members := putMember members name value
            match skipBlanks rest with
            | ',' :: rest => readMembers fuel members rest
            | '\x7d' :: rest => some (members, rest)
            | _ => none
        | _ => none
    | _ => none

end

/-- Reads a text that holds exactly one value. -/
def parse? (text : String) : Option Json :=
  let chars := text.toList
  match readValue (2 * chars.length + 2) chars with
  | some (value, rest) => if (skipBlanks rest).isEmpty then some value else none
  | none => none

end Json
end CodeAtlas
