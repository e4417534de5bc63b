import CodeAtlas.Digest.Words

/-!
# SHA-1

The 160-bit secure hash, used for short names of groups and for keys of structures.
-/

namespace CodeAtlas
namespace Digest
namespace Sha1

/-- The five running words. -/
structure State where
  /-- The first word. -/
  a : UInt32
  /-- The second word. -/
  b : UInt32
  /-- The third word. -/
  c : UInt32
  /-- The fourth word. -/
  d : UInt32
  /-- The fifth word. -/
  e : UInt32

/-- The words before the first block. -/
def start : State := ⟨0x67452301, 0xEFCDAB89, 0x98BADCFE, 0x10325476, 0xC3D2E1F0⟩

/-- Extends the sixteen words of a block to eighty. -/
def schedule (block : Array UInt32) : Array UInt32 :=
  (List.range 64).foldl (fun words index =>
    let at' (offset : Nat) := words.getD (index + 16 - offset) 0
    words.push (rotateLeft (at' 3 ^^^ at' 8 ^^^ at' 14 ^^^ at' 16) 1)) block

/-- The round function and constant of a round. -/
def roundTerm (round : Nat) (state : State) : UInt32 :=
  if round < 20 then (state.b &&& state.c ||| ~~~state.b &&& state.d) + 0x5A827999
  else if round < 40 then (state.b ^^^ state.c ^^^ state.d) + 0x6ED9EBA1
  else if round < 60 then
    (state.b &&& state.c ||| state.b &&& state.d ||| state.c &&& state.d) + 0x8F1BBCDC
  else (state.b ^^^ state.c ^^^ state.d) + 0xCA62C1D6

/-- One round. -/
def round (words : Array UInt32) (state : State) (index : Nat) : State :=
  let next := rotateLeft state.a 5 + roundTerm index state + state.e + words.getD index 0
  ⟨next, state.a, rotateLeft state.b 30, state.c, state.d⟩

/-- One block. -/
def block (state : State) (words : Array UInt32) : State :=
  let after := (List.range 80).foldl (round (schedule words)) state
  ⟨state.a + after.a, state.b + after.b, state.c + after.c, state.d + after.d, state.e + after.e⟩

end Sha1

/-- The SHA-1 digest of a text in UTF-8, in hexadecimal. -/
def sha1 (text : String) : String :=
  let state := run Sha1.block Sha1.start text.toUTF8.toList
  hex [state.a, state.b, state.c, state.d, state.e]

end Digest
end CodeAtlas
