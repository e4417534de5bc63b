import CodeAtlas.Text.Split

/-!
# Globs

A glob is a pattern for paths: a star stands for any characters within a segment, two stars for any
segments, braces for alternatives, brackets for a set of characters. A glob is read into pieces,
each with the pattern text that it stands for. Globs have no escapes: a backslash never occurs in
one.
-/

namespace CodeAtlas
namespace Glob

/-! ## Pattern texts -/

/-- A dot. -/
def dotText : String := "\\."

/-- A slash. -/
def slashText : String := "\\/"

/-- Some character follows. -/
def someText : String := "(?=.)"

/-- Any character within a segment. -/
def anyText : String := "[^/]"

/-- Any characters within a segment. -/
def starText : String := "[^/]*?"

/-- The end of a segment. -/
def endText : String := "(?:\\/|$)"

/-- The start of a segment. -/
def startText : String := "(?:^|\\/)"

/-- A segment of one or two dots. -/
def dotsText : String := "\\.\x7b1,2\x7d(?:\\/|$)"

/-- No segment of one or two dots follows. -/
def noDotsText : String := "(?!" ++ startText ++ dotsText ++ ")"

/-- The segment is not one of one or two dots. -/
def noDotsSegmentText : String := "(?!" ++ dotsText ++ ")"

/-- The segment does not end here, nor after one dot. -/
def noDotSegmentText : String := "(?!\\.\x7b0,1\x7d" ++ endText ++ ")"

/-- Any segments, except those of one or two dots. -/
def globstarText : String := "(?:(?:(?!" ++ startText ++ dotsText ++ ").)*?)"

/-- The sets of characters that have a name. -/
def namedSets : List (String × String) :=
  [("alnum", "a-zA-Z0-9"), ("alpha", "a-zA-Z"), ("ascii", "\\x00-\\x7F"), ("blank", " \\t"),
   ("cntrl", "\\x00-\\x1F\\x7F"), ("digit", "0-9"), ("graph", "\\x21-\\x7E"), ("lower", "a-z"),
   ("print", "\\x20-\\x7E "), ("punct", "\\-!\"#$%&'()\\*+,./:;<=>?@[\\]^_\x60\x7b|\x7d~"),
   ("space", " \\t\\r\\n\\v\\f"), ("upper", "A-Z"), ("word", "A-Za-z0-9_"),
   ("xdigit", "A-Fa-f0-9")]

/-- Whether a character has a meaning in patterns. -/
def isSpecial (char : Char) : Bool :=
  "-*+?.^$\x7b\x7d(|)[]".toList.contains char

/-- Whether a character is a letter, a digit or an underscore. -/
def isWordChar (char : Char) : Bool := char.isAlphanum || char == '_'

/-- A text with a backslash before each character that has a meaning in patterns. -/
def escape (text : String) : String :=
  String.ofList (text.toList.flatMap fun char => if isSpecial char then ['\\', char] else [char])

/-- A text without a number of characters at its end. -/
def dropEnd (count : Nat) (text : String) : String :=
  String.ofList (text.toList.take (text.toList.length - count))

/-! ## Pieces -/

/-- The kinds of pieces. -/
inductive Kind where
  /-- The start of the glob. -/
  | start
  /-- Characters that stand for themselves. -/
  | text
  /-- A set of characters in brackets. -/
  | bracket
  /-- A parenthesis. -/
  | paren
  /-- A brace. -/
  | brace
  /-- A comma. -/
  | comma
  /-- A slash. -/
  | slash
  /-- A dot at the start of a segment or in a group. -/
  | dot
  /-- The dots of a range. -/
  | dots
  /-- A question mark. -/
  | question
  /-- A plus sign. -/
  | plus
  /-- An at sign before a parenthesis. -/
  | atSign
  /-- A star within a segment. -/
  | star
  /-- Stars across segments. -/
  | globstar
  /-- An exclamation mark before a parenthesis. -/
  | negation
  /-- The end of the glob. -/
  | stop
  deriving DecidableEq, Repr

/-- A piece of a glob. -/
structure Piece where
  /-- The kind of piece. -/
  kind : Kind
  /-- The characters of the piece. -/
  value : String
  /-- The pattern text of the piece, if it is not its characters. -/
  output : Option String := none
  /-- Whether the piece opens or closes an extended group. -/
  extended : Bool := false
  /-- Whether more than two stars were read. -/
  crowded : Bool := false
  /-- Whether the piece is a set with a named set inside. -/
  named : Bool := false
  deriving Repr

/-- The pattern text of a piece. -/
def Piece.written (piece : Piece) : String := piece.output.getD piece.value

/-- The pattern text of a piece in a group that turned out to be none. -/
def Piece.rewritten (piece : Piece) : String :=
  match piece.output with
  | some output => if output = "" then piece.value else output
  | none => piece.value

/-- What encloses the place that is being read. -/
inductive Nesting where
  | brackets
  | parens
  | braces
  deriving DecidableEq, Repr

/-- An open brace. -/
structure OpenBrace where
  /-- The length of the pattern text before it. -/
  outputLength : Nat
  /-- The number of pieces before it. -/
  place : Nat
  /-- Whether a comma has been read inside. -/
  hasComma : Bool := false
  /-- Whether the dots of a range have been read inside. -/
  hasDots : Bool := false
  deriving Repr

/-- An open extended group: a mark and a parenthesis. -/
structure OpenGroup where
  /-- The mark before the parenthesis. -/
  mark : Char
  /-- The parentheses open before it. -/
  depth : Int
  /-- What has been read inside. -/
  inner : String := ""
  deriving Repr

/-- The pattern text that opens an extended group. -/
def openingText (mark : Char) : String :=
  if mark = '!' then "(?:(?!(?:" else "(?:"

/-- The pattern text that closes an extended group. -/
def closingText (mark : Char) : String :=
  if mark = '!' then "))" ++ starText ++ ")"
  else if mark = '@' then ")"
  else ")" ++ String.singleton mark

/-- How far a glob has been read. -/
structure Progress where
  /-- The characters after the current one. -/
  rest : List Char
  /-- The number of characters read, the current one included. -/
  index : Nat := 0
  /-- Where the glob starts after marks that are left out. -/
  start : Nat := 0
  /-- The pattern text so far. -/
  output : String := ""
  /-- The pieces so far, the last one first. -/
  pieces : List Piece := [{ kind := .start, value := "", output := some "" }]
  /-- Whether the glob is negated. -/
  negated : Bool := false
  /-- Whether a bracket is open. -/
  inBracket : Bool := false
  /-- The number of open parentheses, below zero after too many closing ones. -/
  parens : Int := 0
  /-- Whether a quote is open. -/
  inQuote : Bool := false
  /-- Whether the pattern text is put together from the pieces at the end. -/
  rebuild : Bool := false
  /-- What encloses the current place, innermost first. -/
  nesting : List Nesting := []
  /-- The open braces, innermost first. -/
  braces : List OpenBrace := []
  /-- The open extended groups, innermost first. -/
  groups : List OpenGroup := []
  deriving Repr

namespace Progress

/-- The piece before the current character. -/
def last (progress : Progress) : Piece :=
  progress.pieces.headD { kind := .start, value := "" }

/-- The kind of the piece that stands a number of pieces before the last one. -/
def kindBefore? (progress : Progress) (count : Nat) : Option Kind :=
  (progress.pieces[count]?).map Piece.kind

/-- Changes the last piece. -/
def changeLast (progress : Progress) (change : Piece → Piece) : Progress :=
  match progress.pieces with
  | [] => progress
  | piece :: pieces => { progress with pieces := change piece :: pieces }

/-- Goes forward by a number of characters. -/
def skip (progress : Progress) (count : Nat) : Progress :=
  { progress with rest := progress.rest.drop count, index := progress.index + count }

/-- Adds pattern text. -/
def write (progress : Progress) (text : String) : Progress :=
  { progress with output := progress.output ++ text }

/-- Takes pattern text back. -/
def takeBack (progress : Progress) (text : String) : Progress :=
  { progress with output := dropEnd text.toList.length progress.output }

/-- The character that stands a number of characters after the current one. -/
def peek? (progress : Progress) (count : Nat) : Option Char := progress.rest[count - 1]?

/-- Opens a nesting. -/
def nest (progress : Progress) (nesting : Nesting) : Progress :=
  { progress with nesting := nesting :: progress.nesting }

/-- Closes the innermost nesting. -/
def unnest (progress : Progress) : Progress :=
  { progress with nesting := progress.nesting.tail }

/-- Stars across segments stand within a segment if something else than a slash follows. -/
def demote (progress : Progress) (piece : Piece) : Progress :=
  let last := progress.last
  let inBraces := !progress.braces.isEmpty && (piece.kind == .comma || piece.kind == .brace)
  let grouped := piece.extended || (!progress.groups.isEmpty && piece.kind == .paren)
  if last.kind == .globstar && piece.kind != .slash && piece.kind != .paren && !inBraces
      && !grouped then
    ((progress.takeBack last.written).changeLast fun last =>
      { last with kind := .star, value := "*", output := some starText }).write starText
  else
    progress

/-- Notes what is read inside an extended group. -/
def note (progress : Progress) (piece : Piece) : Progress :=
  match progress.groups with
  | group :: groups =>
    if piece.kind == .paren then progress
    else { progress with groups := { group with inner := group.inner ++ piece.value } :: groups }
  | [] => progress

/-- Adds a piece; text after text becomes one piece. -/
def push (progress : Progress) (piece : Piece) : Progress :=
  let written := ((progress.demote piece).note piece).write piece.written
  let last := written.last
  if last.kind == .text && piece.kind == .text then
    written.changeLast fun last =>
      { last with
        output := some (last.rewritten ++ piece.value)
        value := last.value ++ piece.value }
  else
    { written with pieces := piece :: written.pieces }

end Progress
end Glob
end CodeAtlas
