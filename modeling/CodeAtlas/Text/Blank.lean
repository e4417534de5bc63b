/-!
# Blank characters

The blank characters of source text: the ASCII ones from the tab to the carriage return, the space,
the Unicode space separators, the two line separators and the byte order mark.
-/

namespace CodeAtlas
namespace Text

/-- A character that trimming removes. -/
def isBlank (char : Char) : Bool :=
  let code := char.toNat
  (0x9 ≤ code && code ≤ 0xD) || code == 0x20 || code == 0xA0 || code == 0x1680
    || (0x2000 ≤ code && code ≤ 0x200A) || code == 0x2028 || code == 0x2029 || code == 0x202F
    || code == 0x205F || code == 0x3000 || code == 0xFEFF

/-- Removes the blanks at the end. -/
def trimEndChars (chars : List Char) : List Char :=
  (chars.reverse.dropWhile isBlank).reverse

/-- Removes the blanks at both ends. -/
def trimChars (chars : List Char) : List Char :=
  trimEndChars (chars.dropWhile isBlank)

/-- Removes the blanks at both ends of a text. -/
def trim (text : String) : String :=
  String.ofList (trimChars text.toList)

end Text
end CodeAtlas
