/-!
# Patterns

A pattern is a regular expression with groups, look-around assertions and back references. It is
matched against a list of symbols: the sixteen-bit units of a text or, in Unicode mode, its
characters. A set of symbols is a list of ranges.
-/

namespace CodeAtlas
namespace Pattern

/-- How a pattern is read and matched. -/
structure Flags where
  /-- `d`: positions of groups are wanted. -/
  indices : Bool := false
  /-- `g`: all matches are wanted. -/
  global : Bool := false
  /-- `i`: case does not matter. -/
  ignoreCase : Bool := false
  /-- `m`: `^` and `$` also stand at line ends. -/
  multiline : Bool := false
  /-- `s`: the dot also stands for a line end. -/
  dotAll : Bool := false
  /-- `u`: symbols are characters, and the grammar is strict. -/
  unicode : Bool := false
  /-- `v`: as `u`, with set operations in classes. -/
  unicodeSets : Bool := false
  /-- `y`: only a match at the current place is wanted. -/
  sticky : Bool := false
  deriving DecidableEq, Repr

namespace Flags

/-- Whether symbols are characters. -/
def byCharacter (flags : Flags) : Bool := flags.unicode || flags.unicodeSets

/-- Sets the flag of a letter, unless it is unknown or already set. -/
def set? (flags : Flags) (letter : Char) : Option Flags :=
  match letter with
  | 'd' => if flags.indices then none else some { flags with indices := true }
  | 'g' => if flags.global then none else some { flags with global := true }
  | 'i' => if flags.ignoreCase then none else some { flags with ignoreCase := true }
  | 'm' => if flags.multiline then none else some { flags with multiline := true }
  | 's' => if flags.dotAll then none else some { flags with dotAll := true }
  | 'u' => if flags.unicode then none else some { flags with unicode := true }
  | 'v' => if flags.unicodeSets then none else some { flags with unicodeSets := true }
  | 'y' => if flags.sticky then none else some { flags with sticky := true }
  | _ => none

/-- Reads flags from their letters. The two Unicode modes exclude each other. -/
def ofText? (letters : String) : Option Flags :=
  match letters.toList.foldlM set? ({} : Flags) with
  | some flags => if flags.unicode && flags.unicodeSets then none else some flags
  | none => none

/-- The letters of flags in alphabetical order. -/
def text (flags : Flags) : String :=
  let letters := [(flags.indices, 'd'), (flags.global, 'g'), (flags.ignoreCase, 'i'),
    (flags.multiline, 'm'), (flags.dotAll, 's'), (flags.unicode, 'u'), (flags.unicodeSets, 'v'),
    (flags.sticky, 'y')]
  String.ofList ((letters.filter (·.1)).map (·.2))

end Flags

/-- A set of symbols as ranges, both ends included. -/
abbrev SymbolSet := List (Nat × Nat)

namespace SymbolSet

/-- Whether a symbol is in a set. -/
def has (set : SymbolSet) (symbol : Nat) : Bool :=
  set.any fun (low, high) => low ≤ symbol && symbol ≤ high

/-- Removes one range from another. -/
def cut (removed range : Nat × Nat) : List (Nat × Nat) :=
  if removed.2 < range.1 ∨ range.2 < removed.1 then
    [range]
  else
    (if range.1 < removed.1 then [(range.1, removed.1 - 1)] else [])
      ++ (if removed.2 < range.2 then [(removed.2 + 1, range.2)] else [])

/-- The symbols of the first set that are not in the second. -/
def minus (set removed : SymbolSet) : SymbolSet :=
  removed.foldl (fun rest range => rest.flatMap (cut range)) set

/-- All symbols. -/
def full : SymbolSet := [(0, 0x10FFFF)]

/-- The symbols that are not in a set. -/
def complement (set : SymbolSet) : SymbolSet := minus full set

/-- The decimal digits. -/
def digits : SymbolSet := [(48, 57)]

/-- The blank characters. -/
def blanks : SymbolSet :=
  [(0x9, 0xD), (0x20, 0x20), (0xA0, 0xA0), (0x1680, 0x1680), (0x2000, 0x200A), (0x2028, 0x2029),
    (0x202F, 0x202F), (0x205F, 0x205F), (0x3000, 0x3000), (0xFEFF, 0xFEFF)]

/-- The word characters. -/
def words : SymbolSet := [(48, 57), (65, 90), (95, 95), (97, 122)]

/-- The line ends. -/
def lineEnds : SymbolSet := [(10, 10), (13, 13), (0x2028, 0x2029)]

end SymbolSet

/-- The word characters of a pattern: in Unicode mode without case, two more letters fold onto ASCII
letters. -/
def wordSet (flags : Flags) : SymbolSet :=
  if flags.byCharacter && flags.ignoreCase then
    SymbolSet.words ++ [(0x17F, 0x17F), (0x212A, 0x212A)]
  else
    SymbolSet.words

/-- The shape of a pattern. -/
inductive Expr where
  /-- Matches the empty list. -/
  | empty
  /-- Matches one given symbol. -/
  | symbol (code : Nat)
  /-- Matches any symbol, except a line end unless the dot stands for all. -/
  | dot
  /-- Matches one symbol of a set, or one that is not in it. -/
  | set (negated : Bool) (symbols : SymbolSet)
  /-- Matches the start of the text, or of a line. -/
  | start
  /-- Matches the end of the text, or of a line. -/
  | stop
  /-- Matches between a word character and another one, or elsewhere. -/
  | boundary (negated : Bool)
  /-- Matches one expression after another. -/
  | seq (first second : Expr)
  /-- Matches the first expression or else the second. -/
  | alt (first second : Expr)
  /-- Matches an expression and remembers where. -/
  | capture (index : Nat) (body : Expr)
  /-- Matches nothing, where an expression stands ahead or behind, or does not. -/
  | look (behind negated : Bool) (body : Expr)
  /-- Matches an expression repeatedly; the groups from `first` on, `count` of them, start afresh
  each time. -/
  | loop (least : Nat) (most : Option Nat) (greedy : Bool) (first count : Nat) (body : Expr)
  /-- Matches what a group has matched. -/
  | repeatGroup (index : Nat)
  /-- Matches what a named group has matched. -/
  | recallName (name : List Nat)
  deriving Repr

/-- A pattern that has been read. -/
structure Compiled where
  /-- How the pattern is matched. -/
  flags : Flags
  /-- The shape. -/
  expr : Expr
  /-- The named groups. -/
  names : List (List Nat × Nat)

end Pattern
end CodeAtlas
