/-!
# Blocks of a message digest

Both digests of this library read a message in blocks of sixteen words, the message being followed
by one set bit, zeros, and its length in bits.
-/

namespace CodeAtlas
namespace Digest

/-- The big-endian bytes of a number, a given count of them. -/
def bigEndian : Nat → Nat → List UInt8
  | 0, _ => []
  | count + 1, value => (value / Nat.pow 256 count % 256).toUInt8 :: bigEndian count value

/-- A message with its padding: a multiple of sixty-four bytes. -/
def padded (message : List UInt8) : List UInt8 :=
  let zeros := (119 - message.length % 64) % 64
  message ++ [0x80] ++ List.replicate zeros 0 ++ bigEndian 8 (8 * message.length)

/-- Reads bytes as big-endian words. -/
def toWords : List UInt8 → List UInt32
  | first :: second :: third :: fourth :: rest =>
    (first.toUInt32 <<< 24 ||| second.toUInt32 <<< 16 ||| third.toUInt32 <<< 8 ||| fourth.toUInt32)
      :: toWords rest
  | _ => []

/-- Folds over the blocks of sixteen words. -/
def foldBlocks {σ : Type} (step : σ → Array UInt32 → σ) : Nat → σ → List UInt32 → σ
  | 0, state, _ => state
  | count + 1, state, words =>
    foldBlocks step count (step state (words.take 16).toArray) (words.drop 16)

/-- Rotates a word to the left. -/
def rotateLeft (word : UInt32) (count : UInt32) : UInt32 :=
  word <<< count ||| word >>> (32 - count)

/-- Rotates a word to the right. -/
def rotateRight (word : UInt32) (count : UInt32) : UInt32 :=
  word >>> count ||| word <<< (32 - count)

/-- One hexadecimal digit. -/
def hexChar (value : Nat) : Char :=
  if value < 10 then Char.ofNat (48 + value) else Char.ofNat (87 + value)

/-- A word as eight hexadecimal digits. -/
def hexWord (word : UInt32) : List Char :=
  (bigEndian 4 word.toNat).flatMap fun byte =>
    [hexChar (byte.toNat / 16), hexChar (byte.toNat % 16)]

/-- Words as hexadecimal text. -/
def hex (words : List UInt32) : String :=
  String.ofList (words.flatMap hexWord)

/-- The digest of a message from the start value and the step of one block. -/
def run {σ : Type} (step : σ → Array UInt32 → σ) (start : σ) (message : List UInt8) : σ :=
  let words := toWords (padded message)
  foldBlocks step (words.length / 16) start words

end Digest
end CodeAtlas
