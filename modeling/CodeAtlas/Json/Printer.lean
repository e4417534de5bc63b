import CodeAtlas.Json.Basic
import CodeAtlas.Number.Shortest

/-!
# Text of structured values

`Json.render` writes a value without blanks. `Json.canonical` sorts the members of every object by
name first, so that values which differ only in the order of their members have one text.
-/

namespace CodeAtlas
namespace Json

/-- One hexadecimal digit in lower case. -/
def hexDigit (value : Nat) : Char :=
  if value < 10 then Char.ofNat (48 + value) else Char.ofNat (87 + value)

/-- A control character, a quote or a backslash takes a backslash before it; all else stays. -/
def escapeChar (char : Char) : List Char :=
  if char = '"' then ['\\', '"']
  else if char = '\\' then ['\\', '\\']
  else if char = '\n' then ['\\', 'n']
  else if char = '\r' then ['\\', 'r']
  else if char = '\t' then ['\\', 't']
  else if char.toNat = 8 then ['\\', 'b']
  else if char.toNat = 12 then ['\\', 'f']
  else if char.toNat < 32 then
    ['\\', 'u', '0', '0', hexDigit (char.toNat / 16), hexDigit (char.toNat % 16)]
  else [char]

/-- A text in quotes. -/
def quote (text : String) : String :=
  "\"" ++ String.ofList (text.toList.flatMap escapeChar) ++ "\""

/-- The text of a number; there is none for a number that is not finite. -/
def renderNumber (value : Float) : String :=
  if value.isNaN || value.isInf then "null" else Number.text value

mutual

/-- The text of a value, members in their order. -/
def render : Json → String
  | null => "null"
  | bool value => if value then "true" else "false"
  | num value => renderNumber value
  | str value => quote value
  | arr items => "[" ++ renderItems items ++ "]"
  | obj members => "\x7b" ++ renderMembers members ++ "\x7d"

/-- Items with commas between them. -/
def renderItems : List Json → String
  | [] => ""
  | [item] => render item
  | item :: rest => render item ++ "," ++ renderItems rest

/-- Members with commas between them. -/
def renderMembers : List (String × Json) → String
  | [] => ""
  | [(name, value)] => quote name ++ ":" ++ render value
  | (name, value) :: rest => quote name ++ ":" ++ render value ++ "," ++ renderMembers rest

end

mutual

/-- Sorts the members of every object by name. -/
def sorted : Json → Json
  | arr items => arr (sortedItems items)
  | obj members => obj (Text.sortBy (·.1) (sortedMembers members))
  | value => value

/-- Sorts the members inside each item. -/
def sortedItems : List Json → List Json
  | [] => []
  | item :: rest => sorted item :: sortedItems rest

/-- Sorts the members inside each member. -/
def sortedMembers : List (String × Json) → List (String × Json)
  | [] => []
  | (name, value) :: rest => (name, sorted value) :: sortedMembers rest

end

/-- The text of a value with sorted members. -/
def canonical (value : Json) : String :=
  render (sorted value)

mutual

/-- The plain text of a value inside a message: texts without quotes, lists as their items with
commas, an object by a fixed word. -/
def display : Json → String
  | null => "null"
  | bool value => if value then "true" else "false"
  | num value => Number.text value
  | str value => value
  | arr items => displayItems items
  | obj _ => "[object Object]"

/-- The items of a list in a message; an absent item is empty. -/
def displayItems : List Json → String
  | [] => ""
  | [null] => ""
  | [item] => display item
  | null :: rest => "," ++ displayItems rest
  | item :: rest => display item ++ "," ++ displayItems rest

end

end Json
end CodeAtlas
