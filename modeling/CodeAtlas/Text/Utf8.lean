/-!
# Lenient reading of UTF-8

Every byte sequence reads as a text: a maximal beginning of a character that cannot be continued
becomes one `U+FFFD`, and reading goes on at the byte that did not fit.
-/

namespace CodeAtlas
namespace Text

/-- What a leading byte calls for: the count of further bytes, the bits it carries itself, and the
admissible range of the byte after it. -/
structure Lead where
  /-- The count of further bytes. -/
  count : Nat
  /-- The bits of the character that the leading byte carries. -/
  bits : Nat
  /-- The least admissible second byte. -/
  low : Nat
  /-- The greatest admissible second byte. -/
  high : Nat

/-- Reads a leading byte above the ASCII range. -/
def lead? (byte : Nat) : Option Lead :=
  if 0xC2 ≤ byte ∧ byte ≤ 0xDF then some ⟨1, byte - 0xC0, 0x80, 0xBF⟩
  else if byte = 0xE0 then some ⟨2, 0, 0xA0, 0xBF⟩
  else if byte = 0xED then some ⟨2, 0xD, 0x80, 0x9F⟩
  else if 0xE1 ≤ byte ∧ byte ≤ 0xEF then some ⟨2, byte - 0xE0, 0x80, 0xBF⟩
  else if byte = 0xF0 then some ⟨3, 0, 0x90, 0xBF⟩
  else if 0xF1 ≤ byte ∧ byte ≤ 0xF3 then some ⟨3, byte - 0xF0, 0x80, 0xBF⟩
  else if byte = 0xF4 then some ⟨3, 4, 0x80, 0x8F⟩
  else none

/-- Reads bytes with an unfinished character in hand, if any. -/
def decodeFrom : Option Lead → List UInt8 → List Char
  | none, [] => []
  | some _, [] => ['\uFFFD']
  | none, byte :: rest =>
    if byte.toNat < 0x80 then
      Char.ofNat byte.toNat :: decodeFrom none rest
    else
      match lead? byte.toNat with
      | some lead => decodeFrom (some lead) rest
      | none => '\uFFFD' :: decodeFrom none rest
  | some lead, byte :: rest =>
    if lead.low ≤ byte.toNat ∧ byte.toNat ≤ lead.high then
      let bits := lead.bits * 64 + byte.toNat % 64
      if lead.count ≤ 1 then
        Char.ofNat bits :: decodeFrom none rest
      else
        decodeFrom (some ⟨lead.count - 1, bits, 0x80, 0xBF⟩) rest
    else if byte.toNat < 0x80 then
      '\uFFFD' :: Char.ofNat byte.toNat :: decodeFrom none rest
    else
      match lead? byte.toNat with
      | some next => '\uFFFD' :: decodeFrom (some next) rest
      | none => '\uFFFD' :: '\uFFFD' :: decodeFrom none rest

/-- Reads bytes as text. -/
def decodeUtf8 (bytes : List UInt8) : String :=
  String.ofList (decodeFrom none bytes)

end Text
end CodeAtlas
