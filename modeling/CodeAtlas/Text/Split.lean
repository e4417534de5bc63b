/-!
# Splitting and joining

Texts are cut at every occurrence of a separator, so that a text without the separator is one piece
and the empty text is one empty piece, and are joined back with a separator between the pieces.
-/

namespace CodeAtlas
namespace Text

/-- The rest of a list after a given beginning. -/
def dropBeginning? : List Char → List Char → Option (List Char)
  | [], chars => some chars
  | _ :: _, [] => none
  | expected :: beginning, char :: chars =>
    if expected = char then dropBeginning? beginning chars else none

/-- Whether a text starts with the given beginning. -/
def startsWith (text beginning : String) : Bool :=
  (dropBeginning? beginning.toList text.toList).isSome

/-- Whether a text ends with the given ending. -/
def endsWith (text ending : String) : Bool :=
  (dropBeginning? ending.toList.reverse text.toList.reverse).isSome

/-- Whether a list of characters occurs inside another. -/
def occursIn (part : List Char) : List Char → Bool
  | [] => part.isEmpty
  | char :: chars => (dropBeginning? part (char :: chars)).isSome || occursIn part chars

/-- Whether a text contains another. -/
def contains (text part : String) : Bool :=
  occursIn part.toList text.toList

/-- Cuts a list at every occurrence of an element. -/
def splitChars (separator : Char) : List Char → List (List Char)
  | [] => [[]]
  | char :: chars =>
    if char = separator then
      [] :: splitChars separator chars
    else
      match splitChars separator chars with
      | [] => [[char]]
      | piece :: pieces => (char :: piece) :: pieces

/-- Cuts a text at every occurrence of a character. -/
def split (separator : Char) (text : String) : List String :=
  (splitChars separator text.toList).map String.ofList

/-- Cuts a list at every occurrence of a pair of equal characters, read from the left. -/
def splitPairs (separator : Char) : List Char → List (List Char)
  | [] => [[]]
  | [char] => [[char]]
  | first :: second :: chars =>
    if first = separator ∧ second = separator then
      [] :: splitPairs separator chars
    else
      match splitPairs separator (second :: chars) with
      | [] => [[first]]
      | piece :: pieces => (first :: piece) :: pieces

/-- Joins texts with a separator between them. -/
def join (separator : String) : List String → String
  | [] => ""
  | [text] => text
  | text :: texts => text ++ separator ++ join separator texts

/-- The last piece of a text cut at a character. -/
def lastPiece (separator : Char) (text : String) : String :=
  (split separator text).getLastD text

/-- Repeats a character. -/
def replicate (count : Nat) (char : Char) : String :=
  String.ofList (List.replicate count char)

end Text
end CodeAtlas
